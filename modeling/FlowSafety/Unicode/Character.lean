import FlowSafety.Unicode.Table

/-!
# Characters of texts

What counts as a letter, a digit or a blank in a text, which characters a change of case depends on,
and which can be shown by themselves, at version 17 of the standard. The tables are in the notation
of `Table.ranges`.
-/

namespace FlowSafety.Unicode

/-! ## Tables -/

def alphabeticText : String :=
  String.join [
  "2Xvcv1lWgWaWbsX-XEfahkadWXW2sWznXXYZXWcWXYXWXpX2oX4ge5bX1bYWc1e1djXWXXXXXWewaZzgb1tXck3bXd",
  "adaYgYYWm1lj3au1WfXaWbtYopudgbtXcdWe1fghZcc2hXlXYakjoXdYXYrXcXWZZZdYXYXXWeWaXXaiXgWaYXbaXY",
  "rXcXXXXXXaaaXYXaWdZXWnbhYXeXYXrXcXXXaZeXYXXZWlZrZaYXdYXYrXcXXXaZdYXYXfXaXXajWmXXbZYXZZXXWX",
  "XZXZYZhaaZYXYZWcW1eiXYXsXlZdXYXYeXXYXXYZyZXdXYXsXfXaZdXYXYeXbYXZjYiiXYX1eYdXYXYXWbZdasbXYX",
  "nZtXeXWYcebXWXdoXj1vbccW1pXXWXaXtXWXoXYYaXWcWkZ1WW1_dX1ZaoalX1Z2Z1sXWYam1_gZY1bXWbWY1gXAiX",
  "ZYcXWXZY1eXZY1WXZYcXWXZYkX1uXZY2Y1blm2rYbZJhYmXvb2gZgdphqipiiXYXXi1pYokWaW2Z2ud1gb2bg-Xhae",
  "tzYah1hav1sxa1-Yp1oWtXhY1n1pXkXd1p1fYZg1hXgk1ssYg1ZYgb1gYY1fZXbXXZWb5_p1Xh8rYbY1bYbYdXWXWX",
  "WX-Y1qXcXWZYXcZZYbaibYXc3qWjWmi3bWaWYfXWZacWXWXWXZXgYZbaaWn1ePj1p1Os7acZZXi1bXWbWY1tdWmsfc",
  "XcXcXcXcXcXcXcX_1lWErYvedaYaa2rcYX2vXZb1gX2zn_1mlGW6D_2WLKi2Z1jY8iZlgXq1kbdZ3m1deY3cY2nqqX",
  "1Wu1pi2ZXW1ibZWXYg1Wb1YjyZ1oXhlWmlgaX1sfjosZ2aXWXWuYYlYZhbYbYbfcXcX1gXjc3wrATZisa1m88aBjY3",
  "f1cciabhXiXaXWXXXXX3h1XBgo1_Y1r1eh3qaX4c1avcvh2uZbYbYbYY1ZhXvXoXXXkYj1Y3w2b1q8hyZ1m1l_jzb1",
  "gbzY1ZadXa1g4zo1Za1Za1de1pigXkXcXXXgXkXcXXZ1pi9sfrgdubX1fXe2bbYWX1hXXZWYsgsf-2XoXXgrgvcv1c",
  "1tcX2WZXXbdXYXy1gyZy1ZdXxx1rgrgojn3k2e1t1oj1oj1d1YxZWbs7w1fXXZXmb1oYZygWer1gn1kqxsf2b1hag1",
  "ufWjut1onZe1YZWf1_XZfXgWXW1ZnX1XYWcZ1-cXWXZXkXfd1utZXdYXYrXcXXXaZdYXYXZWcWbcyfXWYWX1bXfXWY",
  "WXZXXZWXW1i2XXYXZqY-2XYXXW5u1rYcvb1Y1-XWZW1x1rYW2dwYjrc5v1u3d1__dYWYdXXXzXXYXYZ2zdY1jYbXWX",
  "Xx1oYfn2dbWo2e3dd2u1W_eX1iXcXW1nzYrXj2fcXXX1hZWXXXYXWYXubXXX1aXXXZXWt1h8asfmX1eZY3lW2lSv3c",
  "3kn6Z2Ii3Wl11lnbv3SwbIc6Lv1k1MnHud-n2knzo1lmZ_qboDm1i6p1_1WuYu1i2ga1udm2WXXWicf76r1f_3X3o8",
  "FzZXcXXX9YlWzYYWkZeCh28a3gbiZedfaW5RX2qX2cXXYWYXYZXhXWXcX2WXZYdXcXxXZXaXWZcXApYuXuX-XuX-Xu",
  "X-XuX-XuXd1Pq-cb6rcXmYcXXXab1z1XW3m1igcmWAXzo1hFax7azYW6l-XreX7WcXZXXXkX6a1x2ZZWZW15qZXwXX",
  "XWYWXfXZXWXWcWaWXWXWXYXXXWYWXWXWXWXWXXXWYZXcXZXZXWXfXmbYXaXmJqvcvcv3Js19M_1W48zY5KjY79mlJj",
  "2DYGz1FY4Qgb89f"]

def numericText : String :=
  String.join [
  "1mf3uXbWYY1DXf4cf6cfCyf3sfab3if3sf3sfYb3ki3pfec3df3ecdo3jf3Wf3sf2cp8if2cfMlpRnY7lfcfsf9if4",
  "Wg5bfcf5sf2sf4cfcf10sWZbcf6c1oYaMs1x2krJsz1BfWOfWvekYAtZ4gf-dXk1Wf1dkSRWf5yfAWb4wf1cf6cfsf",
  "2sfCsfKOsfFj1ii1unXArw1aZzWeW4ca6gfTkdvc1de2hasb5WXYlY1j2We1qX-Y2ha3edud1fcAgb1mfcf8s-4-f1",
  "gZ3mc4cz4Wf1yf4mfdp7xfAsf3sfBsf3cfcp2ihDao2zfKsf2sy7Zf2cf1sfBcf3cq11h3kF6Xf29cf2sf4cfXcGkf",
  "8csAzYN7vf1Ecpip3iu12r1n2AWfDcfFsf7tfMie4WfOt1wXYXZ2i1iXkUYi2NZf"]

def blankText : String :=
  "faoW3aWwW5E_W2B_gzXbW1lW3TWW"

def casedText : String :=
  String.join [
  "2Xvcv1lWgWaWbsX-X6YXZa6lY1YdX-a3WW1gZYXYZXWcWXYXWXpX2oX4ge5bX1bf1e2Ot1bXWbWY1gXZLW2rYb24Yg",
  "b1gYY2W5_2W8rYbY1bYbYdXWXWXWX-Y1qXcXWZYXcZZYbaibYXc3qWjWmi3bWaWYfXWZacWXWXWXZXbaWYZbaaWn_Z",
  "XPn1p1Os7acZZXi1bXWbWU8o1joz4a3bZZX2iqbXYPr1gXjc2lJQWcia10fvcv15b2l3W1Za1Z3qgXkXcXXXgXkXcX",
  "XEZWYYX1fXe16b1oj1o2zrgr2Ow1_LBW1_1WuYuP9i2qX2cXXYWYXYZXhXWXcX2WXZYdXcXxXZXaXWZcXApYuXuX-X",
  "uX-XuX-XuX-XuXd1PqfXpcb8b1z24o2Z1Vivcvcv"]

def caseIgnorableText : String :=
  String.join [
  "1dWcWhW1ZWXW2dWaWXWaWYXFt5_aXaWfXXW7xc6lWbW1n1iXWXXXXXW1iWhbggXW1ZWgqmW3bdXfXZ1XWXW-w2xg1w",
  "gaWYWut1hY1iWdXbe1f1v1tWXWadaWZcgXjWlW1wWaZeWqXwWYX1vWaXaXYYZW-XZWhX1vWaaXXaWqXsbXW1wWYWXZ",
  "eWdXhX-W1zWiW1oWZW1tWXYbYXZdXhXzW1wWYWcWbXqXyX1vXaZeWqXzW2eWdYXW2wWYche3YWYefWXc2fXxWXWXW1",
  "tjXaXXbgX1ZfW3cZXbXXYXvXaYmZjWYXcWlW2-WJWYToYzX-X-X2WXXceWYgZWbW1ja1pW2XX1YW3sYaXfWcY6xXYW",
  "1wWXcXWXWYdcfYW1dWe1jYhqZ1mWXaXWbW1eeiX1WZYXXY1uWXXZWXY1wdYX2Wb2oYXiXcaWcWZX1o1-jW1Y3aDzWX",
  "YhYjYjYjXiaeXgWYWYa1naXfXWjWmi1p1W2ShX3nY3zWlW3W_1lWErW1aZZabW2zb2zYROsW17Yb8kW3YZXfXWyZ2m",
  "Xk1X2kWtY3cZZXeWZWaWvXbW4tXwnjW1cdvg1kY1mWYZYXnWrX2YbYXYXiWeW1ZWhW1pWXYYXbXXWxWkXbXXW3aafY",
  "3vWYWaWJPmW4pmHzlZWil1YWYW5fWdWcWhW1ZWXW1lW1jX2ZWrYGXW7YW4ra10bbX1fXeIcYXXbZ1eYaW5bXHzZ1cW",
  "waXW9xXuW1qb2cg1nZ3xW1sk1fWYXgY1nZYXYWaWgW1oY1aaXd1-WiX1qegZYW2_YYWXXcWYW4zWZdrX1vXZW1bcZa",
  "2cbjWXWXWkX2rdYYXWtW2qbXWaXXX7kZcXXXxX2rdYWXX3gWXWYbXW3bWXWYZXa8ZeXX8WXXWaW4mZYXaW1Wf1ebYZ",
  "eWfbYY1kiXX6cWXYXW6fcXbXW2orYcXXXX3wbZWXXXcXW2eXZWXW2XW8vXhX1qabWXWtW56rmckB6ehZY2EWa1xcfZ",
  "FyY1eXFYW1_m2WXXXjXFVyZXcXX34-XXZ4Iy1jYsHWYflYc-Z4qY1Tx1sa1neWkWsaXk1AmcXmYcXXXab1z1XW5WjB",
  "mW1zZFxa7-X7pWYWdXbWfWEmc3jd2LlaO30XW-2_4W7l"]

/-- Characters that attach to the one before them. The two halfwidth sound marks of Katakana, which
take up room of their own, are not among them. -/
def combiningText : String :=
  String.join [
  "OW3l8pc8d1iXWXXXXXW2eg1mqmW3bcYbYXXZ1ZW-w2xg1wefWuZXeXYXa1hY1xe1gtX_1tWXWadaWZcgXzW1wWXWYZ",
  "eWfWgXwWYX1vWaXaXYYZW-XZWhX1vWaaXXaWqXsbXW1wWXXXZeWdYgX-W1xWXWiWfW1eWZW1tWXYbYXZdXhXzW1wWY",
  "XXWZYXZdXhXyX1vXXWYZeWfWgXzW2eWaWYYXWeW2nWYcid3YWYehc2fXxWXWXW1tjXaXXbgX1ZfW3cZXbXXYXvXaYm",
  "ZjWYXcWlWL_YToZyYzX-X2WXXceWYgfW1jYXW3rX1YW3sYaXfWcY6xXYW1wWXcXWXWYdcfYW1m1jYhqZ1mfaY1ceiX",
  "1WZYb1uWXXZWXa1udYX4uYXiXcaWcWZX6c1_GiW6Z1W2V-Y4jW3W_Hgb3fXTEqZXf1WX2mX8mWZWaWvXbW4tXwnjW1",
  "cdvgXW1iY1mWYZYXYW1aW2ZbYXYXiWeW1lW1pWXYYXbXXW1gXeW7kWYWaWJPmWNXlmlUjW7YW4ra1KcYXXbZ1eYaW5",
  "bXHzZ2Xa9zX2jb2cg1nZ3xW1sk1fWYXgY1nZYXdW1zY1aaXd1-WiX1qeXWeZYW2_YYZcWYW4zWZdrX1vXXWXWiWfWk",
  "cZa2ZWYbXWYWXYaYXWkX2rdYYXWtW2nWYbXWYWXXXX7hWYZcXXXxX2rdYWXX3gWXWYd3bWXWYZXa8ZeXX7rWgZaW4m",
  "ZYXaW1Wf1ebYZeWfbYY1kiXX6cWXYXW6fcXbXW2orYcXXXX3wbZWXXXcXW2eXZWXWAxXhX1qabYtW57bWckB6ehZY2",
  "EWa1xc10uW1_Z2nWhXJ5hX4JX1jYsG-aZbedYc-Z4qY1Tx1sa1neWkWsaXk1AmcXmYcXXXa3aW5WcBtW1zZFyZ7-X7",
  "pWYWdXbWEwc3jcO5Mr2_4W7l"]

/-- Codes that have no visible form: controls, formats, private and unassigned codes, separators, and
the codes that a display leaves out by default, such as the fillers of Hangul. -/
def invisibleText : String :=
  String.join [
  "W1W2-1XiWLXW1eXcZdWXWqWCjW1cX1oXZW1tdxZcmsW6WW1mX1xX3bj1xX1nXlWyXXWha1Wc2hW5XWeXYXsWdWXYaX",
  "fXYXadXZYWbXvXZWcZYXsWdWYWYWYXXWbZYXZYXcaWXcnfZWfWZWsWdWYWbXgWZWZXXkaXicdWZWeXYXsWdWYWbXfX",
  "YXZcZZYWbXofYWcYZWaYYWXWYYYYZYiZbYZWaXXbXjrajWZWtWmXfWZWacYWZWYXaXgcsWZWtWgWbXfWZWacYaZWaX",
  "gWZhjWZW1pWZWcZmXwWZWoYuWfWXXdYXZcWXWebgXZh1wZz1aYWXWbWuWXWtXbWXWdWgXa_2eW1aZ1dW1aWlWj1a6c",
  "WXaXX4lX7eWaXdWXWaX1fWaX1XWaXdWXWaXlW1vWaX2ZX1WYwb2sXcXKWWyY2vcseueqhjWZWYh1qX1eXgbgbhagb2",
  "vc1ha2cf_WiZiZXY1gXbg1iZwbhY1-X2XWzXhbgbkX1kXip2jW5cd1yYlY1-a1hXhd1haGsXcX1cXcXeWXWXWXW_X1",
  "rWlWkXcWpXZWfmud1lmYXxWjY1Yj1Xk4iZKwrhq1OqXB-a1jWXaXX1ucYjuedWdWdWdWdWdWdWdW3-1XwW2vh6svmW",
  "1_W2sX3da1hW1pW1gW2se1mWSJjY1teAyp5ud6zp1yYgb1ud2cdib3qg-Y2kWhZ1XW1tekXgX3dtyfcXcXcedWdW1y",
  "Z3-XgbATahtZ1nZ20W67_BkX3g1bdhbawWbWXWYWYWKg_mlgb1pWpWaZbW4dZ4_W-YcXcXcXZYdWdiYXiWwWpWYWlX",
  "k1X3xaZZ1jY2uWjYX1k1k4XzY1nkyZ1ae-a1ha-W1bZk1f4-Xgb1aZ1aZ1ed1qgiWlWdWYWhWlWdWYY1qh9tesfetc",
  "W1gWf2acXXW1iWYYXXtW2edf1lpWYa1XYxax1b1uZqX1oWYaeWZWzXZZgcfc2W_1dZie1sYzXxawcahd2l2f1s1pi1",
  "pc1kdgb1cYzdY6l_W1gWZXYlcdf1W1kd1grw1bypte2kZ1ae1-Wbivcgb1rWod1de3WWqgoW1l1zdWXWaWlWhb1xag",
  "baWeXYXsWdWYWbWgXYXZXXbXadXdYbggWXXXW1cWgWXXXWaWgWYdYy2yWbz2edg5b1sX1c1X2bggbjo1wbgbqxxXlZ",
  "t5u1y3Z2pheXXXeWYW-WYXieg2beX1kXhw2ed2pi2fcg2re2t1YjgbfW1jWkfzY1WXsWk2edWYW1iYXWYWfdgbcWYW",
  "1bWYWccgb1iZg7rvcnW1fYz2qXk1oiSx3b3lWbg6a2Ih3Zi11mlsf3SxaId6Lu1w1MbHvc_WgZ2nWgb-Xcf2cfgWdW",
  "rapDl1w6b2xavXv1h2hZ1vcn1_bgde76s1e1W3W3p8FyaWdWYW9ZkXyZXXjadCi28Z3hajYfcgXa3Q_7zYDqbtknk1",
  "kXte3q1x7sf1dX2gd3mq2c3vqhqh2tev4c2rW2dWYXXXYXaWiWXWdW2XWaXeWdWyWaWbWXYdWAqX9aXL-kbWl12l_b",
  "c6qdWnXdWYWba1-1WX3l1jYkXgZY9__m1waXEl1g6r1hZX5__WsdY6_dWaWYWlW6bXm1e2iZgZYOm2a2h1z6XaWxWY",
  "WXXXWgWaWXWXbXZXWXWXWZWYWXXXWXWXWXWXWYWXXaWdWaWaWXWgWnaZWbWn1pY8j1iZ3ahlXlWlW1bf5k1tzi1iZf",
  "cYjc4vUvYnYjY6wbiZXkiZ1udgb1ed-XiZYjf1cAudkXjYhY1vWXZmXiZgc4pW3d10a19NW_48-X5KkX79nkJk2DXG",
  "-1FX4Qha89gRISb"]

def alphabetic : Array (Nat × Nat) := (Table.ranges alphabeticText).toArray

def numeric : Array (Nat × Nat) := (Table.ranges numericText).toArray

def blank : Array (Nat × Nat) := (Table.ranges blankText).toArray

def cased : Array (Nat × Nat) := (Table.ranges casedText).toArray

def caseIgnorable : Array (Nat × Nat) := (Table.ranges caseIgnorableText).toArray

def combining : Array (Nat × Nat) := (Table.ranges combiningText).toArray

def invisible : Array (Nat × Nat) := (Table.ranges invisibleText).toArray

/-! ## Tests -/

def isAlphabetic (c : Char) : Bool := if c.toNat < 128 then c.isAlpha else Table.isIn alphabetic c

def isAlphanumeric (c : Char) : Bool :=
  if c.toNat < 128 then c.isAlphanum else Table.isIn alphabetic c || Table.isIn numeric c

def isWhiteSpace (c : Char) : Bool := Table.isIn blank c

def isCased (c : Char) : Bool := Table.isIn cased c

/-- Whether a change of case looks through a character to the one behind it. -/
def isCaseIgnorable (c : Char) : Bool := Table.isIn caseIgnorable c

/-- Whether a character can be shown by itself: it has a visible form and does not attach to the
character before it. -/
def isPrintable (c : Char) : Bool :=
  if c.toNat < 128 then 32 ≤ c.toNat && c.toNat < 127
  else !Table.isIn invisible c && !Table.isIn combining c

end FlowSafety.Unicode
