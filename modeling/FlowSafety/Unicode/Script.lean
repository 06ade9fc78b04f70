import FlowSafety.Unicode.Table

/-!
# Scripts

The script of a character, and the scripts that a character shared by several is used with, at
version 16 of the standard. A row of the table holds the names of a script, the ranges of its
characters, the ranges that the shared use adds to it, and those that it takes away; all ranges are
in the notation of `Table.ranges`.
-/

namespace FlowSafety.Unicode.Script

def rows : List (String × String × String × String) := [
  ("adlm adlam",
    "3Q8W2hafaX",
    "1G_W1WW6GkW3FnW",
    ""),
  ("aghb caucasianalbanian",
    "219m1phW",
    "OaW1iW1iW",
    ""),
  ("ahom",
    "25OWwYkas",
    "",
    ""),
  ("arab arabic",
    String.join [
     "1GWaXbXjXYX_XfhvX3hX1X2m1l7m-XXb2gXy1SIm3omBgY2lY1rdW1Wl3maX4c3RZ-2ZY1tZ1NOWZXwXXXWYWXfXZX",
     "WXWcWaWXWXWXYXXXWYWXWXWXWXWXXXWYZXcXZXZXWXfXmbYXaXm1qX"],
    "1GiWkWZW1WWggwW6E-W3FnW1JNyX1DWx",
    ""),
  ("armi imperialaramaic",
    "222WrXe",
    "",
    ""),
  ("armn armenian",
    "19n1bY1nYY1TCZa",
    "OeW",
    ""),
  ("avst avestan",
    "22OW1rZc",
    "5tWBBuX",
    ""),
  ("bali balinese",
    "6OW2iX1n",
    "",
    ""),
  ("bamu bamum",
    "19LW2t1G8eHu",
    "",
    ""),
  ("bass bassavah",
    "2QMmzYb",
    "",
    ""),
  ("batk batak",
    "6UW1peZ",
    "",
    ""),
  ("beng bengali",
    "2CWZXdYXYrXcXWZZYeYXYZeWaXXaYu",
    "LyW1KqXnX4RgWXWYXXWeWeWYWaWYY12VvW",
    ""),
  ("bhks bhaiksuki",
    "270WeX1iXjgy",
    "",
    ""),
  ("bopo bopomofo",
    "NgXBGv1g3m_",
    "MdWXYjWB9dYafXigZYWcW6ZW1JAfX8wa",
    ""),
  ("brah brahmi",
    "240W2ja1ZfW",
    "",
    ""),
  ("brai braille",
    "A0W7_",
    "",
    ""),
  ("bugi buginese",
    "6GWxYX",
    "1AElW",
    ""),
  ("buhd buhid",
    "5QWp",
    "5PrX",
    ""),
  ("cakm chakma",
    "248W1qXn",
    "2Fcf1Imf",
    ""),
  ("cans canadianaboriginal",
    "50WJ_Hm2b20Dwl",
    "",
    ""),
  ("cari carian",
    "20LW1m",
    "5tW7TYWYW3EpW",
    ""),
  ("cham",
    "1AGW1sfjYfYZ",
    "",
    ""),
  ("cher cherokee",
    "4TW2rYb15Ro2l",
    "OWYXWcXsXhX",
    ""),
  ("chrs chorasmian",
    "23Tmx",
    "",
    ""),
  ("copt coptic qaac",
    "VYjA4m3pbc",
    "5tWIeWZXXW3iXALXW1L6ex",
    ""),
  ("cpmn cyprominoan",
    "2BSm3Y",
    "208WX",
    ""),
  ("cprt cypriot",
    "220WbYWX1hXXZWYW",
    "208WYa1iZe",
    ""),
  ("cyrl cyrillic",
    "10W4aY5e5Qmg5WW2iW43d_U2W2_LSkX1OGW1z1XW",
    "LyW2ZYXWXWXWYWbWBpX6BnW42gW",
    ""),
  ("deva devanagari",
    "28W2makYv17RW_SGWf",
    "LyW1KqXnX4Rg1cXXVsW11P_f",
    ""),
  ("diak divesakuru",
    "268WcYWYdXXXzXXYhff",
    "",
    ""),
  ("dogr dogra",
    "260W1x",
    "2Bah17MWf",
    ""),
  ("dsrt deseret",
    "210W2l",
    "",
    ""),
  ("dupl duployan",
    "3F0W3gbiZedfYZ",
    "5tWIlXXWuXAOtW33JZZ",
    ""),
  ("egyp egyptianhieroglyphs",
    "2C0W12rg3Sw",
    "",
    ""),
  ("elba elbasan",
    "218W1d",
    "5tWIjW",
    ""),
  ("elym elymaic",
    "23VWs",
    "",
    ""),
  ("ethi ethiopic",
    "4GW2eXZYcXWXZY1eXZY1WXZYcXWXZYkX1uXZY2YY_Zv6FcsfcXcXcXcXcXcXcXcV9YbYbYbfcXc2F5ncXZXXXk",
    "OkW",
    ""),
  ("gara garay",
    "23AW1bZyeX",
    "1GiWkWZW",
    ""),
  ("geor georgian",
    "45W1bXWbWY1gXZ2Sm1gYY42W1bXWbW",
    "5tW16nW2RnW3Q-W3EsW",
    ""),
  ("glag glagolitic",
    "B0W2_3CTWcXmYcXXXa",
    "5tWIhWXWB-WYW8XW2RnW3Q-W3FeWU1hW",
    ""),
  ("gong gunjalagondi",
    "27BWbXXX1aXXXbdf",
    "5tW25iX",
    ""),
  ("gonm masaramgondi",
    "278WcXXX1hZWXXXeef",
    "2BaX",
    ""),
  ("goth gothic",
    "20Pmw",
    "5tWIiXYW1eW",
    ""),
  ("gran grantha",
    "24OWZXdYXYrXcXXXaYeYXYYYWcWbcYcZa",
    "2AnXnXKWj46yWXX-YZXVsW1SIgW34qXXW",
    ""),
  ("grek greek",
    String.join [
     "RmZXYYZXWaWXWXYXWXpX1-kl69ca1oaaa2qWAWrYbY1bYbYdXWXWXWX-Y1qXkXjYbXoYYXe9dW12H-WLEw2knW1K2_",
     "2b"],
    "5tWIeXYWXWXWgW1kWYW1kW6IhXKxW",
    ""),
  ("gujr gujarati",
    "2KXYXeXYXrXcXXXaYfXYXYYWlZYhdc",
    "2AnXnX17Mgf",
    ""),
  ("gukh gurungkhema",
    "2O8W1v",
    "2BbW",
    ""),
  ("guru gurmukhi",
    "2GXYXbaXYrXcXXXXXXYWXaaXYYZWdZXWdm",
    "2AnXnX17Mgf",
    ""),
  ("hang hangul",
    "48W7_7HkX8X2z3n-2X-TNXyKZATZisa1m9Ta-ZbYbYbYY",
    "C0XYafXimWcW6ZW1JAfX8wa",
    ""),
  ("hani han",
    "BKWvX2ui6r1lWXWvekZUa6D_2WKF_M8WBjY3fT8eXiX140k19M_1W41vc6zY5KXk79mlJj2DYGz1FY4Qgb42_",
    "5tWBPulXYYWXfXigZYWcWaZ5xW4ql1W1bfW1m1d1u1mlh1pW2uuga3W-SOXdLPzX8wa1KVwn7M-X",
    ""),
  ("hano hanunoo",
    "5PWq",
    "5PrX",
    ""),
  ("hatr hatran",
    "227WoXXba",
    "",
    ""),
  ("hebr hebrew",
    "1Cn1sewab1T9evXaXWXXXXXf",
    "OdX",
    ""),
  ("hira hiragana",
    "C2X2rcY2VRX8-oWzYG5jW",
    "C0XYafXimbXWaX2xZZW2wX1JAeX8wagW1jX",
    ""),
  ("hluw anatolianhieroglyphs",
    "2H0WIc",
    "",
    ""),
  ("hmng pahawhhmong",
    "2QOW2bgfXcXqbo",
    "",
    ""),
  ("hmnp nyiakengpuachuehmong",
    "3O8W1iZjYfaX",
    "",
    ""),
  ("hung oldhungarian",
    "234W1oj1odb",
    "82wWYW3EpWlW",
    ""),
  ("ital olditalic",
    "20OW1ZfY",
    "",
    ""),
  ("java javanese",
    "1ACW2jYfaX",
    "1AElW",
    ""),
  ("kali kayahli",
    "1A8W1jXW",
    "1A9kW",
    ""),
  ("kana katakana",
    "C5X2vYY7ml6m1kX2t1J0kfX1i1C2oZXcXXXW8_Y1oWkZ",
    "ObWzWB6zYafXimbXWaX2xZZW2wX1JAeX8wagW1jX",
    ""),
  ("kawi",
    "27OWmX1eZy",
    "",
    ""),
  ("khar kharoshthi",
    "22GWZXXbdXYXyYYafde",
    "",
    ""),
  ("khmr khmer",
    "5SW2zYfcfFc_",
    "",
    ""),
  ("khoj khojki",
    "24GWnX1k",
    "2Ncf17AWf",
    ""),
  ("kits khitansmallscript",
    "2RVaW6OxEr1fW",
    "",
    ""),
  ("knda kannada",
    "34WiXYXsXfXaYeXYXZdXcXXZYfXY",
    "2AnXnX4RgWXXcWtWXW12Pxb",
    ""),
  ("krai kiratrai",
    "2RAW1v",
    "",
    ""),
  ("kthi kaithi",
    "244W2YgW",
    "2Bcf96XWUF-f",
    ""),
  ("lana taitham",
    "6HW1-XyYgcfcj",
    "",
    ""),
  ("laoo lao",
    "3KXXXWXaXtXWXsYaXWXcXfYZ",
    "",
    ""),
  ("latn latin",
    String.join [
     "2Xvcv1lWlWbsX-XEW1da6Gx1bc1mbZbiX2b2X7_BnWjWmi4jXcWxWn1e2Mt_ULY3bZ2YYXXWXdrjPm1gXeXZJSsc10",
     "wvcv21bbX1fXe1LQb-cb"],
    "5tWGaWgWXYXWfWXW1ckXXXWiWYYdXXX1cWbWai8rX16gX1TeW37yWHsW6WW39cWU7edHcW",
    ""),
  ("lepc lepcha",
    "70W1tZkZY",
    "",
    ""),
  ("limb limbu",
    "68W-XhahaWZh",
    "2BbW",
    ""),
  ("lina lineara",
    "21GW9sfrgd",
    "208d1i",
    ""),
  ("linb linearb",
    "200WhXvXoXXXkYj1Y3w",
    "208WYa1iZe",
    ""),
  ("lisu",
    "196m1lULmW",
    "LyWmWB9yX",
    ""),
  ("lyci lycian",
    "20KWy",
    "82wW",
    ""),
  ("lydi lydian",
    "229WvbW",
    "5tWBBvW",
    ""),
  ("mahj mahajani",
    "24Am1c",
    "5tW25ih17MWf",
    ""),
  ("maka makasar",
    "27NWu",
    "",
    ""),
  ("mand mandaic",
    "22WxYW",
    "1IWW",
    ""),
  ("mani manichaean",
    "22MW1cah",
    "1IWW",
    ""),
  ("marc marchen",
    "273m_YrXj",
    "",
    ""),
  ("medf medefaidrin",
    "2RIW2w",
    "",
    ""),
  ("mend mendekikakui",
    "3Q0W6aYl",
    "",
    ""),
  ("merc meroiticcursive",
    "22DWtapY1j",
    "",
    ""),
  ("mero meroitichieroglyphs",
    "22CW_",
    "82zW",
    ""),
  ("mlym malayalam",
    "38WiXYX1oXYXbalYv",
    "2AnXnX4RqWtW12PzY",
    ""),
  ("modi",
    "25GW2ahf",
    "1A1mf",
    ""),
  ("mong mongolian",
    "60WXYWXpc2ud1g1VDri",
    "60YXXW21fW3UnXbZ",
    ""),
  ("mroo mro",
    "2QIW-XfaX",
    "",
    ""),
  ("mtei meeteimayek",
    "1ANWs6f1jYf",
    "",
    ""),
  ("mult multani",
    "24KWcXWXZXkXg",
    "2Jcf",
    ""),
  ("mymr myanmar",
    "40W4_16AW-3X_R2mp",
    "1A9kW",
    ""),
  ("nagm nagmundari",
    "3P6m1f",
    "",
    ""),
  ("nand nandinagari",
    "26DWdY1jYg",
    "2BaXSWf3VvWeWdW12Prb",
    ""),
  ("narb oldnortharabian",
    "22KW_",
    "",
    ""),
  ("nbat nabataean",
    "224W-ee",
    "",
    ""),
  ("newa",
    "250W2xXa",
    "",
    ""),
  ("nkoo nko",
    "1UW1wYY",
    "1GiWkWZW1TO-X",
    ""),
  ("nshu nushu",
    "2RVXWGCkCh",
    "",
    ""),
  ("ogam ogham",
    "5KWy",
    "",
    ""),
  ("olck olchiki",
    "72m1l",
    "",
    ""),
  ("onao olonal",
    "3PEm1gaW",
    "2BaX",
    ""),
  ("orkh oldturkic",
    "230W2e",
    "82wW3ErW",
    ""),
  ("orya oriya",
    "2OXYXdYXYrXcXXXaYeYXYYdYaXXaYn",
    "2AnXnX4RqWtW",
    ""),
  ("osge osage",
    "215m1Za1Z",
    "OXWYWcW2iW",
    ""),
  ("osma osmanya",
    "214WzYf",
    "",
    ""),
  ("ougr olduyghur",
    "23Rmv",
    "1IWW215nW",
    ""),
  ("palm palmyrene",
    "223W_",
    "",
    ""),
  ("pauc paucinhau",
    "26MW1u",
    "",
    ""),
  ("perm oldpermic",
    "20Qm1g",
    "5tWIeWbYgWBlW",
    ""),
  ("phag phagspa",
    "1A2W1t",
    "60YXXW21fW3UoW",
    ""),
  ("phli inscriptionalpahlavi",
    "22RWobd",
    "",
    ""),
  ("phlp psalterpahlavi",
    "22SWndZic",
    "1IWW",
    ""),
  ("phnx phoenician",
    "228WxZW",
    "",
    ""),
  ("plrd miao",
    "2ROW2ga1udm",
    "",
    ""),
  ("prti inscriptionalparthian",
    "22QWrYd",
    "",
    ""),
  ("rjng rejang",
    "1A9m1ZhW",
    "",
    ""),
  ("rohg hanifirohingya",
    "238W1def",
    "1GiWkWZW1WW4pW",
    ""),
  ("runr runic",
    "5LW2gZg",
    "5NhY",
    ""),
  ("samr samaritan",
    "20W1jYk",
    "BHnW",
    ""),
  ("sarb oldsoutharabian",
    "22JW_",
    "",
    ""),
  ("saur saurashtra",
    "1A4W2beh",
    "",
    ""),
  ("sgnw signwriting",
    "3M0WKhlaXk",
    "",
    ""),
  ("shaw shavian",
    "212m1l",
    "5tW",
    ""),
  ("shrd sharada",
    "24CW2_",
    "2AnW4SbWXWYXYW12QlbYW",
    ""),
  ("sidd siddham",
    "25CW1rY1b",
    "",
    ""),
  ("sind khudawadi",
    "24Lm1wbf",
    "2BaX17Mgf",
    ""),
  ("sinh sinhala",
    "3CXYXnZtXeXWYcZWabXWXdcfYY20Vip",
    "2BaX4SiW",
    ""),
  ("sogd sogdian",
    "23Pm1f",
    "1IWW",
    ""),
  ("sogo oldsogdian",
    "23OW1d",
    "",
    ""),
  ("sora sorasompeng",
    "246mudf",
    "",
    ""),
  ("soyo soyombo",
    "26Im2o",
    "",
    ""),
  ("sund sundanese",
    "6SW1_8Wd",
    "",
    ""),
  ("sunu sunuwar",
    "26UW1Xkf",
    "OWXXWfWYWyWZW",
    ""),
  ("sylo sylotinagri",
    "1A0W1i",
    "2BaX4Wf",
    ""),
  ("syrc syriac",
    "1OWjX1xYY8mg",
    "OZXYXXWrWYYdXXWMxWkXYW1WWggwW5SdWXW",
    ""),
  ("tagb tagbanwa",
    "5RWiXYXX",
    "5PrX",
    ""),
  ("takr takri",
    "25KW1vcf",
    "2BaX17Mgf",
    ""),
  ("tale taile",
    "6AmzYa",
    "OWXbXZW39pf",
    ""),
  ("talu newtailue",
    "6CW1havcgZX",
    "",
    ""),
  ("taml tamil",
    "2SYXXbZYXZZXXWXXZXZYZhaaZYXZYWcWkq24Ub1njW",
    "2AnXnX4RqW130uWQGjWXW1tX",
    ""),
  ("tang tangut",
    "2RVWW_5VteN_GWe",
    "BVmlFlW",
    ""),
  ("tavt taiviet",
    "1AKW2Yua",
    "",
    ""),
  ("telu telugu",
    "30WiXYXsXlYeXYXZdXXYYWYZYfde",
    "2AnXnX4RqWtW",
    ""),
  ("tfng tifinagh",
    "B9m1tdXkW",
    "OYWXWYWXW",
    ""),
  ("tglg tagalog",
    "5OWrfW",
    "5PrX",
    ""),
  ("thaa thaana",
    "1SW1n",
    "1GiWkXYW2Wf1TSeWgW",
    ""),
  ("thai",
    "3GX1vbx",
    "LyWwW1hW1jW",
    ""),
  ("tibt tibetan",
    "3OW2dX1Za1cX1ZXkXcaX",
    "C0eZ",
    ""),
  ("tirh tirhuta",
    "254W2def",
    "2AnXnX4SiW12Pzf",
    ""),
  ("tnsa tangsa",
    "2QJm2kXf",
    "",
    ""),
  ("todr todhri",
    "21EW1p",
    "OXWYWYWfWXW2gW",
    ""),
  ("toto",
    "3OKm-",
    "LyW",
    ""),
  ("tutg tulutigalari",
    "24SWfXWYWX1bXfXWYWXZXfXXeX",
    "37cf40YWXW12Pxb5xW",
    ""),
  ("ugar ugaritic",
    "20SWzXW",
    "",
    ""),
  ("vaii vai",
    "198W9h",
    "",
    ""),
  ("vith vithkuqi",
    "21BmgXkXcXXXgXkXcXX",
    "",
    ""),
  ("wara warangciti",
    "265W2oiW",
    "",
    ""),
  ("wcho wancho",
    "3OMW1vbW",
    "",
    ""),
  ("xpeo oldpersian",
    "20TW1Zaj",
    "",
    ""),
  ("xsux cuneiform",
    "280WSv3c3kXah6Z",
    "",
    ""),
  ("yezi yezidi",
    "23KW1fXYYX",
    "1GiWkWZW2Wf",
    ""),
  ("yiii yi",
    "180W14iZ1s",
    "C0XXbfYd6_W1JJba",
    ""),
  ("zanb zanabazarsquare",
    "26GW2d",
    "",
    ""),
  ("zinh inherited qaai",
    "OW3l8rXEagwWNWZ4Ax-GXYXiXcaWcWZX6c1_GiX6Y1W3PvZ3hX1JBblmjUlW7YW42wW1EUa1jYsHWYndYc-ZOBQo7l",
    "",
    "OWkXXXWiWYYdXXXmWYWoWbWai8rXEagwWNWX4RzYXiXcaWcWZX6cX1sWXWNrW3PvZ3hX1KIbW42wW"),
  ("zyyy common",
    String.join [
     "W2Wwbw1kXkXatW_WEX1cbaYp3qWfWcWXWJzWcWkWZW1WW4yWGaW4XX16vWCrZ9YW1FlY2dX6hXXW16jWjWdZXbXYYW",
     "ObhY2sXgZgXkn1W1_1bXYYbXwXm1fYaKvsgrS_8WJpY_X3eGW2zCoqXWXuldaZ2xXZW2wX4pl1W1bfW1m1__2m1lW2",
     "u5d6EW1_M8W1X3cY5bf7qW5WWChWkXKEoX6mfs1YXoXZ4pWX_wbwggW1jX2WcXcga8YYa1iZe2mi1p1i7aw1EDaZ3Q",
     "y7vcDp4y3p1y7rg1cY1zZmeXdza1y6rpipi2sfu4d2qX2cXXYWYXYZXhXWXcX2WXZYdXcXxXZXaXWZcXApY9ZY1n53",
     "n2Z2i1yMY1ha3ZikYkXkX1ag5j1uvXXj1haedXkb4wUtamZiZ3sa2-chaWlha1tefc1dezYhaX1-ApijYiZfb1tdkY",
     "gced4oX3bO10dW-2_"],
    "",
    String.join [
     "5tWGaWgWXYXWfWXW4wWKtWkWZW1WWPZX1SrW1FlY2dX6hXXW16jWjWdZXbXYYWPqW_WgWYW3DvWuXgWaWXWDilXYYW",
     "XfXimbXWaZ2xXZW2wX4pl1W1bfW1m1d1u1mlh1pW2uuga3W-SOXd9ef7qW5WWKRkX8bX8wagW1jXBWYa1iZeDXw1ED",
     "aZ5Lyn7M-X"])]

/-- The row of a script by one of its names, in lower case and without separators. -/
def row? (name : String) : Option (String × String × String × String) :=
  rows.find? fun row => (Table.words row.1).contains name

/-- The ranges of the characters of a script. -/
def ranges? (name : String) : Option (List (Nat × Nat)) :=
  (row? name).map fun row => Table.ranges row.2.1

/-- The ranges of the characters that are used with a script. -/
def extendedRanges? (name : String) : Option (List (Nat × Nat)) :=
  (row? name).map fun row =>
    let (_, own, added, removed) := row
    Table.without (Table.ranges own) (Table.ranges removed) ++ Table.ranges added

end FlowSafety.Unicode.Script
