import FlowSafety.Unicode.Table

/-!
# General categories

Every character code has one of thirty general categories. The table lists the runs of codes of one
category at version 16 of the standard, as the number of the category and the length of the run less
one.
-/

namespace FlowSafety.Unicode

/-- A general category of the Unicode standard, by its two-letter name. -/
inductive Category where
  | lu
  | ll
  | lt
  | lm
  | lo
  | mn
  | mc
  | me
  | nd
  | nl
  | no
  | pc
  | pd
  | ps
  | pe
  | pi
  | pf
  | po
  | sm
  | sc
  | sk
  | so
  | zs
  | zl
  | zp
  | cc
  | cf
  | cs
  | co
  | cn
deriving DecidableEq, Repr

namespace Category

/-- The categories in the order of their numbers in the table. -/
def all : List Category :=
  [.lu, .ll, .lt, .lm, .lo, .mn, .mc, .me, .nd, .nl, .no, .pc, .pd, .ps, .pe, .pi, .pf, .po,
    .sm, .sc, .sk, .so, .zs, .zl, .zp, .cc, .cf, .cs, .co, .cn]

/-! ## Groups and names -/

def letters : List Category := [.lu, .ll, .lt, .lm, .lo]

def casedLetters : List Category := [.lu, .ll, .lt]

def marks : List Category := [.mn, .mc, .me]

def numbers : List Category := [.nd, .nl, .no]

def punctuation : List Category := [.pc, .pd, .ps, .pe, .pi, .pf, .po]

def symbols : List Category := [.sm, .sc, .sk, .so]

def separators : List Category := [.zs, .zl, .zp]

/-- The rest; the surrogate codes are no characters, so their category is left out. -/
def others : List Category := [.cc, .cf, .co, .cn]

/-- The categories and groups by name, written in lower case and without separators. -/
def named : List (List String × List Category) :=
  [(["c", "other"], others), (["cc", "control", "cntrl"], [.cc]), (["cf", "format"], [.cf]),
    (["cn", "unassigned"], [.cn]), (["co", "privateuse"], [.co]), (["l", "letter"], letters),
    (["lc", "casedletter"], casedLetters), (["ll", "lowercaseletter"], [.ll]),
    (["lm", "modifierletter"], [.lm]), (["lo", "otherletter"], [.lo]),
    (["lt", "titlecaseletter"], [.lt]), (["lu", "uppercaseletter"], [.lu]),
    (["m", "mark", "combiningmark"], marks), (["mc", "spacingmark"], [.mc]),
    (["me", "enclosingmark"], [.me]), (["mn", "nonspacingmark"], [.mn]),
    (["n", "number"], numbers), (["nd", "decimalnumber", "digit"], [.nd]),
    (["nl", "letternumber"], [.nl]), (["no", "othernumber"], [.no]),
    (["p", "punctuation", "punct"], punctuation), (["pc", "connectorpunctuation"], [.pc]),
    (["pd", "dashpunctuation"], [.pd]), (["pe", "closepunctuation"], [.pe]),
    (["pf", "finalpunctuation"], [.pf]), (["pi", "initialpunctuation"], [.pi]),
    (["po", "otherpunctuation"], [.po]), (["ps", "openpunctuation"], [.ps]),
    (["s", "symbol"], symbols), (["sc", "currencysymbol"], [.sc]),
    (["sk", "modifiersymbol"], [.sk]), (["sm", "mathsymbol"], [.sm]),
    (["so", "othersymbol"], [.so]), (["z", "separator"], separators),
    (["zl", "lineseparator"], [.zl]), (["zp", "paragraphseparator"], [.zp]),
    (["zs", "spaceseparator"], [.zs])]

/-- The categories that a name stands for. -/
def named? (name : String) : Option (List Category) :=
  (named.find? fun entry => entry.1.contains name).map (·.2)

/-! ## The table -/

/-- The runs of the table, in the notation of `Table.numbers`. -/
def runText : String :=
  String.join [
  "v_sWnYpWnYjWkWnWoWnWiWnXefnXoYnXWvjWnWkWqWhWqWXvjWoWkWoWv1WsWnWpZrWnWqWrWaWlWoWwWrWqWrWoWg",
  "XqWXWnXqWgWaWmWgYnWWsoWWcXtoWXdWWXWWWXWWWXWWWXWWWXWWWXWWWXWWWXWWWXWWWXWWWXWWWXWWWXWWWXWWWX",
  "WWWXWWWXWWWXWWWXWWWXWWWXWWWXWWWXWWWXWWWXWWWXWWWXWWWXXWWXWWWXWWWXWWWXWWWXWWWXWWWXWWWXXWWXWW",
  "WXWWWXWWWXWWWXWWWXWWWXWWWXWWWXWWWXWWWXWWWXWWWXWWWXWWWXWWWXWWWXWWWXWWWXWWWXWWWXWWWXWWWXWWXX",
  "WWWXWWWXYWXXWWWXWWXXWWYXXWZXWWXXWWYXYWXXWWXXWWWXWWWXWWXXWWWXXWWXWWXXWWYXWWWXWWXXXaWWWXYaZW",
  "WYWXWWWYWXWWWYWXWWWXWWWXWWWXWWWXWWWXWWWXWWWXWWWXXWWXWWWXWWWXWWWXWWWXWWWXWWWXWWWXWWWXXWWYWX",
  "WWWXWWYXWWWXWWWXWWWXWWWXWWWXWWWXWWWXWWWXWWWXWWWXWWWXWWWXWWWXWWWXWWWXWWWXWWWXWWWXWWWXWWWXWW",
  "WXWWWXWWWXWWWXWWWXWWWXWWWXWWWXWWWXcWXXWWXXXWWXWWZXWWWXWWWXWWWXWWWX2aaWXwZnqZZhqjZaqcZWqWZW",
  "qmb3lWWXWWWXWZWqWWWXWzXZWXYnWWWzZqXWWnWWYzWWWzWWXXWWmzWWeX1YWWXXWYXYWWXWWWXWWWXWWWXWWWXWWW",
  "XWWWXWWWXWWWXWWWXWWWXWWWXaWWXWoWWWXWWXXXW1oX1lWWXWWWXWWWXWWWXWWWXWWWXWWWXWWWXWWWXWWWXWWWXW",
  "WWXWWWXWWWXWWWXWWWXWWWXWrWbadXWWXWWWXWWWXWWWXWWWXWWWXWWWXWWWXWWWXWWWXWWWXWWWXWWWXWWWXWWWXW",
  "WWXWWWXWWWXWWWXWWWXWWWXWWWXWWWXWWWXWWWXWWWXWWWXWWXXWWWXWWWXWWWXWWWXWWWXWWWXXWWXWWWXWWWXWWW",
  "XWWWXWWWXWWWXWWWXWWWXWWWXWWWXWWWXWWWXWWWXWWWXWWWXWWWXWWWXWWWXWWWXWWWXWWWXWWWXWWWXWWWXWWWXW",
  "WWXWWWXWWWXWWWXWWWXWWWXWWWXWWWXWWWXWWWXWWWXWWWXWWWXWWWXWWWXWWWXWWWXWWWXWWWXWWWXWWWXWWWXWzW",
  "W1bzXZWnbX1enWiWzXrXpWzWb1iiWbWnWbXnWbXnWbWzdawzZaZnXzgwboYnXpWnXrXbgnWwWnYa_ZWafbqefnZaXb",
  "Wa3YnWaWbcwWrWbbZXbXrWbZaXefaYrXaWnjzWwWaWbWazbwzXa2ubgaWzjefa1WbeZXrWnYZWzXbWpXarbZZWbeZW",
  "bYZWbazXnkzWaubYzXnWzWagzaatqWabzWwXzabea1eZWbtwWb_cWa1rbWcWbWaWcYbdcZbWcXaWbcafbXnXefnWZW",
  "akbWcXzWadzXaXzXarzWaczWaWzYaZzXbWaWcYbZzXcXzXcXbWaWzdcWzZaXzWaYbXzXefaXpXgbrWpWaWnWbWzXbX",
  "cWzWabzZaXzXarzWaczWaXzWaXzWaXzXbWzWcYbXzZbXzXbYzYbWzcaZzWaWzcefbXaYbWnWzfbXcWzWaezWaYzWar",
  "zWaczWaXzWaazXbWaWcYbazWbXcWzWcXbWzXaWzkaXbXzXefnWpWzcaWbbzWbWcXzWadzXaXzXarzWaczWaXzWaazX",
  "bWaWcWbWcWbZzXcXzXcXbWzcbXcWzZaXzWaYbXzXefrWaWgbzfbWaWzWabzYaYzWaZzYaXzWaWzWaXzYaXzYaYzYah",
  "zZcXbWcXzYcYzWcYbWzXaWzbcWzjefgYrbpWrWzabWcYbWadzWaYzWaszWalzXbWaWbYcZzWbYzWbZzcbXzWaYzXaW",
  "zXaXbXzXefzcnWgcrWaWbWcXnWadzWaYzWaszWafzWaazXbWaWcWbWcazWbWcXzWcXbXzccXzbaXzWaXbXzXefzWaX",
  "cWzhbXcXaezWaYzWa1ebXaWcYbZzWcYzWcYbWaWrWzZaYcWgcaYbXzXefgerWabzWbWcXzWanzYatzWaezWaWzXacz",
  "YbWzZcYbYzWbWzWcdzbefzXcXnWzha1lbWaXbczZpWabZWbdnWefnXz1aaXzWaWzWaazWatzWaWzWafbWaXbeaWzXa",
  "azWZWzWbczWefzXaZz_aWrYnkrWnWrYbXrbefgfrWbWrWbWrWbWjWkWjWkWcXadzWa1ZzZbjcWbanWbXaabgzWb1Zz",
  "WrdbWrbzWrXnarZnXz1aa1gcXbZcWbbcWbXcXbXaWefnbabcXbXaZbYaWcYaXccaYbZaibWcXbXcbbWaWcWefcYbWr",
  "XW1bzWWWzaWWzXX1gnWZWXYaAezWaZzXaczWaWzWaZzXa1ezWaZzXa1WzWaZzXaczWaWzWaZzXakzWa1uzWaZzXa2Y",
  "zXbYnegpzYalrfzbW2rzXXbzXiWaJhrWnWamsWavjWkWzYa2gnYfYadzcanbYcWzeaobXcWnXzeanbXzhaizWaYzWb",
  "Xzha1pbXcWbccdbWcXbgnYZWnYpWaWbWzXefzbgfzbnbiWnZbYwWbWefzba1YZWa1qzcaabXa1XbWaWzaa2bzfa-zW",
  "bYcZbXcYzZcXbWcbbYzZrWzYnXefazzXaazga1hzZavzbefgWzYr1XasbXcXbWzXnXa1qcWbWcWbczWbWcWbWcXbdc",
  "bbfzXbWefzbefzbncZWnbzXbjdWblz1mbZcWa1kbWcWbacWbWcabWcXadzWnXefncrfberenYbXcWazcWbZcXbXcWb",
  "YaXefa1hbWcWbXcYbWcWbYcXzdnZa1ZcdbdcXbXzYnaefzYaYefazZbnXXeWWXWzaW1gzXWYndzdbYnWbicWbcaZbW",
  "abbWaXcWbXaWzaX1hZ1-XiZWX1XZ1ab1_WWXWWWXWWWXWWWXWWWXWWWXWWWXWWWXWWWXWWWXWWWXWWWXWWWXWWWXWW",
  "WXWWWXWWWXWWWXWWWXWWWXWWWXWWWXWWWXWWWXWWWXWWWXWWWXWWWXWWWXWWWXWWWXWWWXWWWXWWWXWWWXWWWXWWWX",
  "WWWXWWWXWWWXWWWXWWWXWWWXWWWXWWWXWWWXWWWXWWWXWWWXWWWXWWWXWWWXWWWXWWWXWWWXWWWXWWWXWWWXWWWXWW",
  "WXWWWXWWWXWWWXWWWXWWWXWWWXWWWXWWWXWWWXWWWXWWWXWWWXWWWXWWWXWWWXeWWXWWWXWWWXWWWXWWWXWWWXWWWX",
  "WWWXWWWXWWWXWWWXWWWXWWWXWWWXWWWXWWWXWWWXWWWXWWWXWWWXWWWXWWWXWWWXWWWXWWWXWWWXWWWXWWWXWWWXWW",
  "WXWWWXWWWXWWWXWWWXWWWXWWWXWWWXWWWXWWWXWWWXWWWXWWWXWWWXWWWXWWWXWWWXWWWXWWWXWWWXeWdXbzXWbzXX",
  "dWdXdWdXbzXWbzXXdzWWWzWWWzWWWzWWWXdWdXjzXXdYdXdYdXdYdXazWXXWZYWqWXWqYXYzWXXWZYWqYXZzXXXWZz",
  "WqYXdWaqYzXXYzWXXWZYWqXzWsgwaibnXlWmWjWlXmWjWlWndtWuWwasWnelWmWnZhXnYoWjWkWngoWnWhWnfsWwaz",
  "WwfgWZWzXgboYjWkWZWgfoYjWkWzWZizYp1WzkbidZbWdYbhzkrXWWrZWWrXXWWYXXWYXWrWWWrXoWWarbWWrWWWrW",
  "WWrWWZrWXWWZXWaZXWrXXXWXoaWWXZrWoWrXXWrWglf1YWWXWfZgWrXzZoaraoXrZoWrXoWrXoWrcoWr-oXrXoWrWo",
  "Wr-o8hrdjWkWjWkWrpoXrcjWkWr2moWrzour1dobr2dzrrgzqg1xr2jgrr5soWreoWr1rodr3koWr7tjWkWjWkWjWk",
  "WjWkWjWkWjWkWjWkWgzr1hoajWkWo-jWkWjWkWjWkWjWkWjWkWolr7_o4YjWkWjWkWjWkWjWkWjWkWjWkWjWkWjWkW",
  "jWkWjWkWjWkWo1-jWkWjWkWo_jWkWo8Xr1loqrXobr1czXr_zWr3eW1lX1lWWXWWYXXWWXWWWXWWWXWWZXWWWXXWWX",
  "bZXWYXWWWXWWWXWWWXWWWXWWWXWWWXWWWXWWWXWWWXWWWXWWWXWWWXWWWXWWWXWWWXWWWXWWWXWWWXWWWXWWWXWWWX",
  "WWWXWWWXWWWXWWWXWWWXWWWXWWWXWWWXWWWXWWWXWWWXWWWXWWWXWWWXWWWXWWWXWWWXWWWXWWWXWWWXWWWXWWWXWW",
  "WXWWWXWWWXWWWXWWWXWWWXXrbWWXWWWXWbYWWXWzanZgWnXX1bzWXWzaXWzXa1tzcZWnWzjbWaszeaczWaczWaczWa",
  "czWaczWaczWaczWaczWb_nXlWmWlWmWnYlWmWnWlWmWneiWnXiWnWlWmWnXlWmWjWkWjWkWjWkWjWkWnaZWnfiXnZi",
  "WnWjWnirXnYjWkWjWkWjWkWjWkWiWz1XrvzWr2uzhr6rzvrlsWnYrWZWaWfWjWkWjWkWjWkWjWkWjWkWrXjWkWjWkW",
  "jWkWjWkWiWjWkXrWfebZcXiWZarXfYZWaWnWrXzWa2rzXbXqXZXaWiWa2vnWZYaWzaa1gzWa2zzWrXgZrfa_r1bzer",
  "Walr-zWgfrzgdrWgkr_gfr1cgkr9_a6D_r1_aKGqZWa13szYr1szea1dZbnXa8hZWnYalefaXzpWWXWWWXWWWXWWWX",
  "WWWXWWWXWWWXWWWXWWWXWWWXWWWXWWWXWWWXWWWXWWWXWWWXWWWXWWWXWWWXWWWXWWWXWWWXWWWXWaWbWdYnWbfnWZ",
  "WWWXWWWXWWWXWWWXWWWXWWWXWWWXWWWXWWWXWWWXWWWXWWWXWWWXWWWXWZXbXa2bffbXnbzdqsZeqXWWXWWWXWWWXW",
  "WWXWWWXWWWXWWWXYWWXWWWXWWWXWWWXWWWXWWWXWWWXWWWXWWWXWWWXWWWXWWWXWWWXWWWXWWWXWWWXWWWXWWWXWWW",
  "XWWWXWWWXWWWXWWWXWWWXWWWXWWWXWWWXWWWXWWWXWWWXWWWXWZWXdWWXWWWXWWXXWWWXWWWXWWWXWWWXWZWqXWWXW",
  "WWXWaWWWXWWWXYWWXWWWXWWWXWWWXWWWXWWWXWWWXWWWXWWWXWWWXWWaXWWaXWWWXWWWXWWWXWWWXWWWXWWWXWWWXW",
  "WZXWWWXWWXXWzXWWXWzWXWzWXWWWXWWWXWWWXWWWzqZYWWXWaWZXXWacbWaYbWaZbWascXbXcWrZbWzYgbrXpWrWzb",
  "a1pnZzdcXa1nclbXzdnXefzbbnabnYaWnWaXbWefaxbdnXasbgcXzgnWayzYbYcWa1kbWcXbZcXbXcYnizWZWefzZn",
  "XaabWZWaeefaazWa1ebbcXbXcXbXzeaYbWadbWcWzXefzXnZalZWabrYaWcWbWcWa1nbWaWbYaXbXaabXaWbWaWzta",
  "XZWnXagcWbXcXnXaWZXcWbWzfabzXabzXabzeaczWaczWX1gqWZZXeZWqXzZX2la1YcXbWcXbWcXnWcWbWzXefzbaA",
  "TZzhaszZa1mzZx1V_y67_aBjzXa3fz1bXczhXazaaWbWafoWaizWaazWaWzWaXzWaXzWa3hqmzlaBgkWjWrla1_zXa",
  "1rzcrWz_ahpWrYblncjWkWnWzbblnWiXhXjWkWjWkWjWkWjWkWjWkWjWkWjWkWjWkWnXjWkWnZhYnYzWnZiWjWkWjW",
  "kWjWkWnYoWiWoYzWnWpWnXzZaazWa4czXwWzWnYpWnYjWkWnWoWnWiWnXefnXoYnXWvjWnWkWqWhWqWXvjWoWkWoWj",
  "WkWnWjWkWnXafZWa1iZXa-zYabzXabzXabzXaYzYpXoWqWrWpXzWrWoZrXzfwYrXzXahzWavzWaozWaXzWakzXajz1",
  "Xa3wzanYzZg1izYref1qgZrmgXrYzWrizYrWz1kr1ibWz4XayzYa1mzkbWgwzZa_gZzeapfWadfWzaa1bbazaazzWn",
  "Wa1ZzZadnWfaz1fW1dX1da2jzXefzbW1ZzZX1ZzZa1dzda1pzgnWWgzWWkzWWczWWXzWXgzWXkzWXczWXXzYa1pzha",
  "9szearzfadztZbzWZ1fzWZez2aabzXaWzWa1hzWaXzYaWzXaszWnWgdasrXgca-zdgez1laozWaXzagaargbzYnWav",
  "zanWz1_a1tzZgXaXglzXg1jaWbYzWbXzabZaZzWaYzWayzXbYzZbWgezcnezcaygXnWaygYz_adrWaxbXzZganczea",
  "1rzYncarzXgdaozagdanzcnZzhgcz2la2ez1sW1oziX1ozcgba1ZbZzdefzbefaZZWaWWrzYbaiWZWXrzdoXz6lg-z",
  "Wa1fzWbXiWzXaXzlaYz1sbZaygfaWzdarbggZnazranbZnZz1baqgczpaszecWbWcWa1qbknczZgpefbWaXbXaWzeb",
  "YcWa1icYbZcXbXnXwWnZbWzfwWzXauzcefzbbYa1ZbacWbdzWefnZaWcXaWzda1YbWnXaWzebXcWa1lcYbecXaZnZb",
  "ZnWcWbWefaWnWaWnYzWgpzganzWaucYbYcXbWcWbXnbbWaXbWz1zaczWaWzWaZzWakzWafnWzba1kbWcYbdzaefzbb",
  "XcXzWadzXaXzXarzWaczWaXzWaazWbXaWcXbWcZzXcXzXcYzXaWzbcWzaaacXzXbczYbazgafzWaWzXaWzWa1bzWaW",
  "cYbbzWcWzXcWzWcZzWcXbWcWbWaWbWaWnXzWnXzdbXzya1qcYbdcXbYcWbWaZnaefnXzWnWbWaYzza1lcYbbcWbWcZ",
  "bXcWbXaXnWaWzdefz5ba1kcYbZzXcZbXcWbXnsaZbXz1Xa1lcYbdcXbWcWbXnYaWzgefzbnizoa1gbWcWbWcXbbcWb",
  "WaWnWzbefzbepzxawzXbWcWbWcXbZcWbazZefgXnYrWacz5ua1hcYbecWbXnWz3ZW_X_efgezhadzXaWzXadzWaXzW",
  "atcbzWcXzXbXcWbWaWcWaWcWbWnYzeefz2badzXa1ccYbZzXbXcZbWaWnWaWcWzwaWbfa1dbbcWaWbZndbWzdaWbbc",
  "XbYa1jbicWbXnYaWnazia2ezcnfz5ra1WnWzjefzbaezWa1acWbczWbbcWbWaWnazfefgozYnXazzXbrzWcWbccWbX",
  "cWbXz2eaczWaXzWa1bbbzYbWzWbXzWbcaWbWzdefzbabzWaXzWa_cazWbXzWcXbWcWbWaWzcefz9raobXcXnXzcbXa",
  "WcWaizWa1XcXbazYcXbWcWbWniefbWz2qaWzkgqrdpZrmzinWaSvz3bf3kzWnazga6Zz2Iha3WnXzia11lwlbWabbk",
  "zfa3SwzaaIcz6LuazbhcYbYefz1MbaHuzca-zWefzZnXa2kzWefzbazzXbanWzfa1lbcnarZZZnWrWzfefzWgczWaq",
  "zaaozDlZYa1dZXnYefz6bW_X_gsnZz3aa2gzZbWaWc1szcbZZiz1_ZXnWZWbWzgcXzja5Vtzda16rz1eafz8NcZZzW",
  "ZczWZXzWa9YzkaWzyaYzXaWzjaZzdaChz28Za3gzaaizYaezcafzXrWbXnWwZz3Qxr7lefzbrDpz2hb1jzXbszer3p",
  "z1xr7rzfr1czXr1xcXbYrYcbwdbdrXbcrzbZr1yzqr2XbYrWz3vgpzhgpzhr2szeguz4cWvXvWvXczWXnWvXvWWzWW",
  "XzXWWzXWXzXWZzWWdXZzWXWzWXczWXgWvXvWXzWWZzXWdzWWczWXvWXzWWZzWWazWWWzYWczWXvWvXvWvXvWvXvWvX",
  "vWvXvWvXxzXWuoWXuoWXbWuoWXuoWXbWuoWXuoWXbWuoWXuoWXbWuoWXuoWXbWWXWzXe1nrF_b1srZb1nrdbWrjbWr",
  "XnazkbazWbkz12lXfaWXpzbXbz6qbczWbmzXbczWbXzWbazaZ1zz1WbWz3la1izYbcZczXefzZaWrWz9_azbWzma1h",
  "bZefzapWzElawZWbZefz6razbXaWefzZnWzE_aczWaZzWaXzWakzWa6azXgebcz1eW1XX1XbcZWzZefzZnXzOmg1wr",
  "WgYpWgZz2hg1irWgkz6XaZzWawzWaXzWaWzXaWzWafzWaZzWaWzWaWzbaWzZaWzWaWzWaWzWaYzWaXzWaWzXaWzWaW",
  "zWaWzWaWzWaWzWaXzWaWzXaZzWaczWaZzWaZzWaWzWafzWamzaaYzWaazWamz1poXz8jr1hzZr3ZzhrkzXrkzWrkzW",
  "r1azfgir5Wz1tryzir1hzZrezcrXzjrbz4vr7wqarMtzZrmzYrizYr3szZr2-zbrhzZrWzkrhzZr1tzdrfzbr1dzdr",
  "zzXrhzZrXz1zrApzhrjzXrizYrfzar1tzcrkzXrgzbrezcr4ozWr2xefz10ba19M_z_a41vzba6zzXa5KXzja79mzk",
  "aJjz2DXaGzz1FXa4Qgzaa42_zLN2mwWzzw2_z3_b7lz1VGly1VVzzXy1VVzzX"]

/-- The runs as pairs of a category number and a range of codes, ascending from the given code. -/
def runsFrom (start : Nat) : List (Nat × Nat) → List (Nat × Nat × Nat)
  | [] => []
  | (number, more) :: rest => (number, start, start + more) :: runsFrom (start + more + 1) rest

def runs : List (Nat × Nat × Nat) := runsFrom 0 (Table.pairs (Table.numbers runText))

/-- The ranges of the codes whose category is one of the given. -/
def ranges (cs : List Category) : List (Nat × Nat) :=
  let wanted := cs.map all.idxOf
  (runs.filter fun run => wanted.contains run.1).map (·.2)

end Category

end FlowSafety.Unicode
