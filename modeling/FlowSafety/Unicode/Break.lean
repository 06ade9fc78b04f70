import FlowSafety.Unicode.Table

/-!
# Breaks

The part that a character plays where a text is cut into user-perceived characters, words and
sentences, at version 16 of the standard. A row of a table holds the names of a part and the ranges
of its characters in the notation of `Table.ranges`. A character that plays no part is in no row.
-/

namespace FlowSafety.Unicode.Break

def clusterRows : List (String × String) := [
  ("cn control",
    "WfXXXn2_1WjW1BkW4FnW1VyWYXuc1nl1NKlW7mhD1ql123WZ56ldOBKb_3W3_7m3Gl"),
  ("cr",
    "jW"),
  ("ex extend",
    String.join [
     "OW3l8pc8d1iXWXXXXXW2eg1mqmW3bcYbYXXZ1ZW-w2xg1wefWuZXeXYXa1hY1xe1gtX_1tWXWadaWZcgXzW1wWXWYZ",
     "eWfWgXwWYX1vWaXaXYYZW-XZWhX1vWaaXXaWqXsbXW1wWXXXZeWdYgX-W1xWXWiWfW1eWZW1tWXYbYXZdXhXzW1wWY",
     "XXWZYXZdXhXyX1vXXWYZeWfWgXzW2eWaWYYXWeW2nWYcid3YWYehc2fXxWXWXW1tjXaXXbgX1ZfW3cZXbXXYXvXaYm",
     "ZjWYXcWlWL_YToZyYzX-X2WXXceWYgfW1jYXW3rX1YW3sYaXfWcY6xXYW1wWXcXWXWYdcfYW1m-1nZ1mfaY1ceiX1W",
     "ZYb1uWXXZWXa1udYX4uYXiXcaWcWZX6c1_GiW6Z1W2V-Y4jW3W_Hgb3fXTEqZXf1WX2mX8mWZWaWvXbW4tXwnjW1cd",
     "vgXW1iY1mWYZYXYW1aW2ZbYXYXiWeW1lW1pWXYYXbXXW1gXeW7kWYWaWJPmWNXlmlBkXIzW7YW4ra1KcYXXbZ1eYaW",
     "5bXHzZ2Xa9zX2lZ2cg1nZ3xW1sk1fWYXgY1nZYXdW1zY1aaXd1-WiX1qeXWeZYW2_YYZcWYW4zWZdrX1vXXWXWiWfW",
     "kcZa2ZWYbXWYWXYaYXWkX2rdYYXWtW2nWYbXWYWXXXX7hWYZcXXXxX2rdYWXX3gWXWYd3bWXWYZXa8ZeXX7rWgZaW4",
     "mZYXaW1Wf1ebYZeWfbYY1kiXXCscXbXW2orYcXXXX3wbZWXXXcXW2eXZWXWAxXhX1qabYtW57bWckB6ehZY2EWa1xc",
     "10uW1_Z2nWhXJ5hX4JX1jYsG-aZbedYc-Z4qY1Tx1sa1neWkWsaXk1AmcXmYcXXXa3aW5WcBtW1zZFyZ7-XNWc3jc2",
     "LmaO31W2_4W7l"]),
  ("l",
    "48W2_160Wy"),
  ("lf",
    "gW"),
  ("lv",
    String.join [
     "1B0WWxWxWxWxWxWxWxWxWxWxWxWxWxWxWxWxWxWxWxWxWxWxWxWxWxWxWxWxWxWxWxWxWxWxWxWxWxWxWxWxWxWxWx",
     "WxWxWxWxWxWxWxWxWxWxWxWxWxWxWxWxWxWxWxWxWxWxWxWxWxWxWxWxWxWxWxWxWxWxWxWxWxWxWxWxWxWxWxWxWx",
     "WxWxWxWxWxWxWxWxWxWxWxWxWxWxWxWxWxWxWxWxWxWxWxWxWxWxWxWxWxWxWxWxWxWxWxWxWxWxWxWxWxWxWxWxWx",
     "WxWxWxWxWxWxWxWxWxWxWxWxWxWxWxWxWxWxWxWxWxWxWxWxWxWxWxWxWxWxWxWxWxWxWxWxWxWxWxWxWxWxWxWxWx",
     "WxWxWxWxWxWxWxWxWxWxWxWxWxWxWxWxWxWxWxWxWxWxWxWxWxWxWxWxWxWxWxWxWxWxWxWxWxWxWxWxWxWxWxWxWx",
     "WxWxWxWxWxWxWxWxWxWxWxWxWxWxWxWxWxWxWxWxWxWxWxWxWxWxWxWxWxWxWxWxWxWxWxWxWxWxWxWxWxWxWxWxWx",
     "WxWxWxWxWxWxWxWxWxWxWxWxWxWxWxWxWxWxWxWxWxWxWxWxWxWxWxWxWxWxWxWxWxWxWxWxWxWxWxWxWxWxWxWxWx",
     "WxWxWxWxWxWxWxWxWxWxWxWxWxWxWxWxWxWxWxWxWxWxWxWxWxWxWxWxWxWxWxWxWxWxWxWxWxWxWxWxWxWxWxWxWx",
     "WxWxWxWxWxWxWxWxWxWxWxWxWxWxWxWxWxWxWxWxWxWxWxWxWxWxWxWxWxWxWxWxWxWxWxWxWxWxWxWxW"]),
  ("lvt",
    String.join [
     "1B0XwXwXwXwXwXwXwXwXwXwXwXwXwXwXwXwXwXwXwXwXwXwXwXwXwXwXwXwXwXwXwXwXwXwXwXwXwXwXwXwXwXwXwX",
     "wXwXwXwXwXwXwXwXwXwXwXwXwXwXwXwXwXwXwXwXwXwXwXwXwXwXwXwXwXwXwXwXwXwXwXwXwXwXwXwXwXwXwXwXwX",
     "wXwXwXwXwXwXwXwXwXwXwXwXwXwXwXwXwXwXwXwXwXwXwXwXwXwXwXwXwXwXwXwXwXwXwXwXwXwXwXwXwXwXwXwXwX",
     "wXwXwXwXwXwXwXwXwXwXwXwXwXwXwXwXwXwXwXwXwXwXwXwXwXwXwXwXwXwXwXwXwXwXwXwXwXwXwXwXwXwXwXwXwX",
     "wXwXwXwXwXwXwXwXwXwXwXwXwXwXwXwXwXwXwXwXwXwXwXwXwXwXwXwXwXwXwXwXwXwXwXwXwXwXwXwXwXwXwXwXwX",
     "wXwXwXwXwXwXwXwXwXwXwXwXwXwXwXwXwXwXwXwXwXwXwXwXwXwXwXwXwXwXwXwXwXwXwXwXwXwXwXwXwXwXwXwXwX",
     "wXwXwXwXwXwXwXwXwXwXwXwXwXwXwXwXwXwXwXwXwXwXwXwXwXwXwXwXwXwXwXwXwXwXwXwXwXwXwXwXwXwXwXwXwX",
     "wXwXwXwXwXwXwXwXwXwXwXwXwXwXwXwXwXwXwXwXwXwXwXwXwXwXwXwXwXwXwXwXwXwXwXwXwXwXwXwXwXwXwXwXwX",
     "wXwXwXwXwXwXwXwXwXwXwXwXwXwXwXwXwXwXwXwXwXwXwXwXwXwXwXwXwXwXwXwXwXwXwXwXwXwXwXwXw"]),
  ("pp prepend",
    "1GWb6tW1nWCWX2mW13hW20RkWlW7qXGjW1BjWXW7uW2fbLyWDxW"),
  ("ri regionalindicator",
    "3SFcv"),
  ("sm spacingmark",
    String.join [
     "28ZW1tWYYeZXX1oX1xXcXYX1sW1wY2YW1wYeWXX1rX1yWcXYX3oWXXZYXY1qY1zZ1zX1wWYWXX1kWkX1xXbYXY1rX2",
     "iXccpX1_W3_W4gX1_W5nWfXvX1iW1PnWddXXAwZYYaXXb7WX1wWXWrb4nW1vZ2WW-WaX1_WYYXW1rdeX5hWrW12PhX",
     "YW2uX1ol4kW1mW1mXaXYX3lXYXuW4zWYXbW7jXXXXXXWP0pWXW3_W1jYaX3pWuX1xW1mYfWkW2zYZX5iY_X1xWXZYX",
     "YXrX2rXlWXX3dYeXZW3hXcWXXXWYW7kXcZYW3nYeXXW3jWXX3kWdW8bYfW7uaXXdWXW4kYeZaW2qWzX1-WCtWkW3gW",
     "dWYW6raaXXWA-XiW1mXeXGFgY3Ha1s"]),
  ("t",
    "4De2t1HEh1m"),
  ("v",
    "4BW2d1HGes15CyWZZ"),
  ("zwj",
    "80jW")]

def wordRows : List (String × String) := [
  ("cr",
    "jW"),
  ("dq doublequote",
    "1YW"),
  ("ex extendnumlet",
    "2_W7UlWlXpW1NE-XuY7lW"),
  ("extend",
    String.join [
     "OW3l8pc8d1iXWXXXXXW2eg1mqmW3bcYbYXXZ1ZW-w2xg1wefWuZXeXYXa1hY1xe1gtX1W1sYXnXcgXzY1uWXcYXYYf",
     "WgXwWYY1uWXaaXYYZW-XZWhY1uWXdXYXYqXsbXY1uWXcYXYYdYgX-W1xaZYXZfW1ea1tWXcXYXZdXhXzY1uWXcXYXZ",
     "dXhXlWiZ1tXXcXYXZfWgXzY2cWabXWXdoX1zWYcid3YWYehc2fXxWXWXWaX1npXXbgX1ZfW3aptZaYXYYcZZjhXWgZ",
     "L_YToZyYzX-X2W_fW1jYXW3rX1YW3shah6xa1vfXyYW1m-1na1lm1ceiY-i1uj1mp4uYXqaWcWYY6c1_GiW6Z1W2V-",
     "Y4jW3W_Hgb3fXTEqZXf1WX2mX8mWZWaWtaaW2pX1onwnjW1cdvi1iZ1lj1aW2ZjiWeX1jY1oWXYYXbXXW1fabX7idX",
     "XJPmWNXlmlBkXIzW7YW4ra1KcYXXbZ1eYaW5bXHzZ2Xa9zX2lZ2cg1nZ3wY1rk1fWYXgZ1jgdW1zY1ajmX1iWiY1mj",
     "eZXX2yhcWYW4zhrZ1tXXcYXYYfWgXYcZa2ZeXWYWXZXaXWkX2ontW2np7hcYexX2om3gi3bk8Wk7rbXXYZXWXX4jcY",
     "cZWyf1ecXZeWfg1klCrdXd2orXj3wbZWXXXcXW2YaXXXaAxZfXXW1mcZatW57bWckB6en2EWa1xc10uWX1sdZ2nWhX",
     "J5hX4JX1jYsG-aZbedYc-Z4qY1Tx1sa1neWkWsaXk1AmcXmYcXXXa3aW5WcBtW1zZFyZ7-XNWc3jc2LmaO31W2_4W7",
     "l"]),
  ("fo format",
    "5jW1BkW4FnW1V_Xwa1naXf1NKlW7vYD1ql123WZ56ldOBKcW"),
  ("hl hebrewletter",
    "1EmwaZ1T9gWXfXiXaXWXXXXXf"),
  ("ka katakana",
    "C1na3bXZ2wXZ7ml6m1kX2t1J0k1t1C2oZXcXXXW8_Y1oWkZ"),
  ("le aletter",
    String.join [
     "2Xvcv1lWgWaWbsX-XE_c1X3maXXYZXWcWXYXWXpX2oX4ge5bX1bYZXWX1eXW3eW1i1g1ZXX3YXWlXdXgYYWlXXzz2u",
     "hWu1WfXaWbraWfWZWtudgbtXbn1f1w1rZWoWdflladYXYrXcXWZZZWmWjXXYkXgWebaXYrXcXXXXXX_ZXWpYmeXYXr",
     "XcXXXaZWoWlXtWhdYXYrXcXXXaZW-XXYlWnWXbZYXZZXXWXXZXZYZhsW1qdXYXsXlZWwYYWYX-WadXYXsXfXaZW_XX",
     "XlXneXYX1eYWmWbYeYubbnZtXeXWYc9vW1_dX1Zxa8p1bXWbWY1gXAiXZYcXWXZY1eXZY1WXZYcXWXZYkX1uXZY2Y1",
     "blm2rYbZJhYmXvb2gZgdnjoknkiXY5l2udaY1XXWb2bg-7Xs7k1knd1szjXg1hw1Z1fYg1ZYgb1gYY1fZXbXXZWb5_",
     "2W8rYbY1bYbYdXWXWXWX-Y1qXcXWZYXcZZYbaibYXc3qWjWmi3bWaWYfXWZacWXWXWXZXgYZbaaWn1ePj1p1Os7acZ",
     "ZXi1bXWbWY1tdWmsfcXcXcXcXcXcXcXc2mWErW1rX6e1gX2zn_RIW14i2Z1jY8iZlgXq1km-Y2lu6bYXXWXdrlXYXZ",
     "Xsz1pk1n1-bZWXXhxgsvyd1kyW1m1etYXd4qgdYibYbYbfcXcX1vc3ozATZisa1m8Oacia1u3X1XBgo1_Y1r1eh3qa",
     "X4c1avcv2b-ZbYbYbYY1ZhXvXoXXXkYj1Y3w2b1q8hyZ1m1l_jzb1bgzY1ZadXa1g4zo1Za1Za1de1pigXkXcXXXgX",
     "kXcXXZ1pi9sfrgdubX1fXe2bbYWX1hXXZWYsgsf-2XoXXgrgv2c1tcX2WWlZXYXy1gyZy1ZdXxx1rgrgojn3k2e1t1",
     "oj1oj1Z1cxfs7w1fcXmY1xygWer1gn1kqxsi1q1vXYWj1i1Wuw1ZzWYWe1YZWi1lkZrWXW1ZnXupX1_cXWXZXkXfd1",
     "k1cdYXYrXcXXXaZWoWia-fXWYWX1bXWvWXW1i1qoZqY-1lqXXW5u1k1fZ1a1lqW1x1gjWAd1h3q1__dYWYdXXXtlWX",
     "W2-dY1cmWXWyWg1ddWrWh1jpWo2e6d1W_eX1anW1nz3mcXXX1brWvbXXX_kWAdolWXiX1X3yW2lSv3c3kn6Z2Ii3Wl",
     "11lnbv3SwbIc6Lvz1NYHud-n2knzo1lmZ_qboDm1i6p1_4W2gbW2Yi2WXXWJ0y3gbiZedf5Rc2qX2cXXYWYXYZXhXW",
     "XcX2WXZYdXcXxXZXaXWZcXApYuXuX-XuX-XuX-XuX-XuXd1Pq-cb8b1z4o1igcmWAXzo1hFax7azYWFlcXZXXXkX6a",
     "1x2ZdW15qZXwXXXWYWXfXZXWXWcWaWXWXWXYXXXWYWXWXWXWXWXXXWYZXcXZXZXWXfXmbYXaXmJqvcvcv"]),
  ("lf",
    "gW"),
  ("mb midnumlet",
    "1kW7VfXgW1NHjW5qWcW"),
  ("ml midletter",
    "1wW3yWMlWEtW4qW6HoW1NFhW2XW6aW"),
  ("mn midnum",
    "1iWkWQYWGgW4YX2-WChW62hW1NGhWZW5tWkW"),
  ("nl newline",
    "hX3uW7TYX"),
  ("nu numeric",
    String.join [
     "1mf1Ecb2wfXW3nWof6cf6cX2mW4Zf3sf3sf3sf3sf3sf3sf3sf3sf3sf3Wf3sf2cf8sf2cf1Qcf1cf9if4Wg5bfcf5",
     "sf2sf4cfcf12EcfLcf1cf6cfsf2sfCsfKOsf1Ccf24cfcfOyf2jWlW1Yf1yf4mf8sfAsf3sfBsf3cfcp2ifDcf3cfK",
     "sf2sf7sf2cfDcfGEsf29cf2sf4cfGsfNRsf2Mq1n2AWfDcfFsf7tfQrf4Ksf"]),
  ("ri regionalindicator",
    "3SFcv"),
  ("sq singlequote",
    "1dW"),
  ("wsegspace",
    "1WW5I_W2B_cXY2qW3TWW"),
  ("zwj",
    "80jW")]

def sentenceRows : List (String × String) := [
  ("at aterm",
    "1kW7VrW1NHjW5xW"),
  ("cl close",
    String.join [
     "1YWaY1nWXWzWXW1jWlW3J-Z1QzX2BxdvXgX1sXkXJvZzX11mbdj2lX_fCpr1_Z1WX10YjkXYfuWodDhfYdXY1J8-X6",
     "tXylYXmb5fX1nWXWzWXWXXXX1TOoY"]),
  ("cr",
    "jW"),
  ("ex extend",
    String.join [
     "OW3l8pc8d1iXWXXXXXW2eg1mqmW3bcYbYXXZ1ZW-w2xg1wefWuZXeXYXa1hY1xe1gtX1W1sYXnXcgXzY1uWXcYXYYf",
     "WgXwWYY1uWXaaXYYZW-XZWhY1uWXdXYXYqXsbXY1uWXcYXYYdYgX-W1xaZYXZfW1ea1tWXcXYXZdXhXzY1uWXcXYXZ",
     "dXhXlWiZ1tXXcXYXZfWgXzY2cWabXWXdoX1zWYcid3YWYehc2fXxWXWXWaX1npXXbgX1ZfW3aptZaYXYYcZZjhXWgZ",
     "L_YToZyYzX-X2W_fW1jYXW3rX1YW3shah6xa1vfXyYW1m-1na1lm1ceiY-i1uj1mp4uYXqaWcWYY6c1_GiX6Y1W2V-",
     "Y4jW3W_Hgb3fXTEqZXf1WX2mX8mWZWaWtaaW2pX1onwnjW1cdvi1iZ1lj1aW2ZjiWeX1jY1oWXYYXbXXW1fabX7idX",
     "XJPmWNXlmlBkXIzW7YW4ra1KcYXXbZ1eYaW5bXHzZ2Xa9zX2lZ2cg1nZ3wY1rk1fWYXgZ1jgdW1zY1ajmX1iWiY1mj",
     "eZXX2yhcWYW4zhrZ1tXXcYXYYfWgXYcZa2ZeXWYWXZXaXWkX2ontW2np7hcYexX2om3gi3bk8Wk7rbXXYZXWXX4jcY",
     "cZWyf1ecXZeWfg1klCrdXd2orXj3wbZWXXXcXW2YaXXXaAxZfXXW1mcZatW57bWckB6en2EWa1xc10uWX1sdZ2nWhX",
     "J5hX4JX1jYsG-aZbedYc-Z4qY1Tx1sa1neWkWsaXk1AmcXmYcXXXa3aW5WcBtW1zZFyZ7-XNWc3jcO5Mr2_4W7l"]),
  ("fo format",
    "5jW1BkW7oW47-W1VyWYXwa1naXf1NKlW7vYD1ql123WZ56ldOBKcW"),
  ("le oletter",
    String.join [
     "DxWaZ6mW1acchwWXW4bWFaW3swaa1i1g1ZXX3YXWlXdXgYYWmWXzz2uhWu1WfXaWbraWfWZWtudgbtXbn1f1w1rZWo",
     "WdflladYXYrXcXWZZZWmWjXXYkXgWebaXYrXcXXXXXX_ZXWpYmeXYXrXcXXXaZWoWlXtWhdYXYrXcXXXaZW-XXYlWn",
     "WXbZYXZZXXWXXZXZYZhsW1qdXYXsXlZWwYYWYX-WadXYXsXfXaZW_XXXlXneXYX1eYWmWbYeYubbnZtXeXWYc1w1lX",
     "Xic1wXXWXaXtXWXfXXfWYaXWrZ1WW1_dX1Zxa3p1gqWmbaZZWZXdYaiiW2X1gYAhXZYcXWXZY1eXZY1WXZYcXWXZYk",
     "X1uXZY2Y1bl3nJhYmXvb2gZgdnjoknkiXYl1p1ZWaW2Z2udaY1XXWb2bg-1nzYah1hav1ssf1q2oW2z1knd1szjXg1",
     "hw1Z1fYg1Zo1gYY1fZXbXXZW11wZ2dYYZ2Td1tdWmsfcXcXcXcXcXcXcXc2mWErYvedaYaa2rcYX2vXZb1gX2zn_1m",
     "lGW6D_2WLKi2Z1jY8iZlgX2YWmW1W2l1de3eWcW3dWZcXYXZXsz1pk1n1-bZWXXhxgsvyd1kyWmaXfgaX1etYXdqsZ",
     "WZ1nXWZXYaYWXWuYYgdYibYbYbfcXc4n1YzATZisa1m88aBjY3f2ZWXfXiXaXWXXXXX3h1XBgo1_Y1r1eh3qaX4c3f",
     "1tY-ZbYbYbYY1ZhXvXoXXXkYj1Y3w2b1q8hyZ1m1l_jzb1bgzY1ZadXa3w2j3Y1de1p2y1pi9sfrgdvX3zbYWX1hXX",
     "ZWYsgsf-2XoXXgrgv2c1tcX2WWlZXYXy1gyZy1ZdXxx1rgrgojn3k2e5t1Z1cb_W8m1fcXmY1xygWer1gn1kqxsi1q",
     "1vXYWj1i1Wuw1ZzWYWe1YZWi1lkZrWXW1ZnXupX1_cXWXZXkXfd1k1cdYXYrXcXXXaZWoWia-fXWYWX1bXWvWXW1i1",
     "qoZqY-1lqXXW5u1k1fZ1a1lqW1x1gjW2dw1bc5v1h6pdYWYdXXXtlWXW2-dY1cmWXWyWg1ddWrWh1jpWo2e6d1W_eX",
     "1anW1nz3mcXXX1brWvbXXX_kWAdolWXiX1X3yW2lSv3c3kn6Z2Ii3Wl11lnbv3SwbIc6Lvz1NYHud-n2knzo1lmZ_q",
     "boDm1iCp2gbW2Yi2WXXWy5Vte16r1ff8NdZXcXXX9YlWzYYWkZeCh28a3gbiZedf8JmWFr1igcmWAXzo1hFax7azYW",
     "FlcXZXXXkX6a4cW15qZXwXXXWYWXfXZXWXWcWaWXWXWXYXXXWYWXWXWXWXWXXXWYZXcXZXZXWXfXmbYXaXm4Aa19M_",
     "1W41vc6zY5KXk79mlJj2DYGz1FY4Qgb42_"]),
  ("lf",
    "gW"),
  ("lo lower",
    String.join [
     "3Xv1lWgWaW1atXdXWXWXWXWXWXWXWXWXWXWXWXWXWXWXWXWXWXWXWXWXWXWXWXWXWXWXWXXXWXWXWXWXWXWXWXXXWX",
     "WXWXWXWXWXWXWXWXWXWXWXWXWXWXWXWXWXWXWXWXWXWYWXWXYYWXWYWZXaWYWZYYWYWXWXWYWXXXWYWZWXWYXYYcWY",
     "WYWXWXWXWXWXWXWXWXXXWXWXWXWXWXWXWXWXXYWXWZWXWXWXWXWXWXWXWXWXWXWXWXWXWXWXWXWXWXWXWXWXWXWXWX",
     "WXWXWXWXWXcYWYXXWaWXWXWXWX2aX1ZdX-a4iWXWZWYZoWx1YXXZYXWXWXWXWXWXWXWXWXWXWXWXaXWYWYX1p1lXWX",
     "WXWXWXWXWXWXWXWXWXWXWXWXWXWXWXWfWXWXWXWXWXWXWXWXWXWXWXWXWXWXWXWXWXWXWXWXWXWXWXWXWXWXWYWXWX",
     "WXWXWXWXXXWXWXWXWXWXWXWXWXWXWXWXWXWXWXWXWXWXWXWXWXWXWXWXWXWXWXWXWXWXWXWXWXWXWXWXWXWXWXWXWX",
     "WXWXWXWXWXWXWXW1m1e2RpWNxb24YeXW3r5_2XWXWXWXWXWXWXWXWXWXWXWXWXWXWXWXWXWXWXWXWXWXWXWXWXWXWX",
     "WXWXWXWXWXWXWXWXWXWXWXWXWXWXWXWXWXWXWXWXWXWXWXWXWXWXWXWXWXWXWXWXWXWXWXWXWXWXWXWXWXWXWXWXWX",
     "WXWXWXeXWXWXWXWXWXWXWXWXWXWXWXWXWXWXWXWXWXWXWXWXWXWXWXWXWXWXWXWXWXWXWXWXWXWXWXWXWXWXWXWXWX",
     "WXWXWXWXWXWXWXeebgdedebgdedejYdededeaXXcWZYXXeZYXedgYXX3vWjWmi3jWZXZWxWaWaWYXeZaW1XlaWQhv1",
     "Qc1lXWZXXWXWXWaWXXXdZWXWXWXWXWXWXWXWXWXWXWXWXWXWXWXWXWXWXWXWXWXWXWXWXWXWXWXWXWXWXWXWXWXWXW",
     "XWXWXWXWXWXWXWXWXWXWXWXWXWXWXXdWXWaWi1bXWbWU8pWXWXWXWXWXWXWXWXWXWXWXWXWXWXWXWXWXWXWXWXWXWX",
     "WpWXWXWXWXWXWXWXWXWXWXWXWXWXY4bWXWXWXWXWXWXYXWXWXWXWXWXWXWXWXWXWXWXWXWXWXWXWXWXWXWXWXWXWXW",
     "XWXWXWXWXWXWXWXfXWXWYWXWXWXWXWaWXWYWXYXWXWXWXWXWXWXWXWXWXWbWbWXWXWXWXWXWXWXWaWXWYWZWXWXWXW",
     "XWXWsYXWXYPr1gXjc2lJQWcia11fv16j1d4e1Z4xgXkXcXXEZWYYX1fXe18b1o3zr2Pw_LCW_PCwvwcXnwvwZXWXcX",
     "gwvwvwvwvwvwvwvwvwxyuXbwuXbwuXbwuXbwuXbXW1PqfXpcb8b1z25q1X"]),
  ("nu numeric",
    String.join [
     "1mf1Ecb2wfXX3mWof6cf6cX2mW4Zf3sf3sf3sf3sf3sf3sf3sf3sf3sf3Wf3sf2cf8sf2cf1Qcf1cf9if4Wg5bfcf5",
     "sf2sf4cfcf12EcfLcf1cf6cfsf2sfCsfKOsf1Ccf24cfcfOyf2jWlW1Yf1yf4mf8sfAsf3sfBsf3cfcp2ifDcf3cfK",
     "sf2sf7sf2cfDcfGEsf29cf2sf4cfGsfNRsf2Mq1n2AWfDcfFsf7tfQrf4Ksf"]),
  ("sc scontinue",
    "1iXiXQYWE-W5kXFgW40fWbW20gX3ViW1JGkXXXyXzXYXYWgW5eXiX2eW"),
  ("se sep",
    "4bW7TYX"),
  ("sp",
    "fWXXpW3_W5E_W2B_g1aW1lW3TWW"),
  ("st sterm",
    String.join [
     "1XWzW1AfW4pY5qW1hY7sW1zWXWZX9bX1NaXOsWaXObW6cX4zX1jWbW9wXBYZ5YXgXYXzY5xX2XXTyXfY35lY9oWjWs",
     "XDjWT7yW8kX7ZWZWB-X2sX2_W4uX4pY4mX7vWKHcWYX1_X5fWzW2XW2NqX17za1iZ5zX3rZ3_Y4XXcWmX2uXXX3iW9",
     "gX3rXBrXbk3fX7vYGbWXW7xX2tXDaXLqX2gXIPfX4bW2XXhWHfX9eWJGcW7FeW"]),
  ("up upper",
    String.join [
     "2Xv3bsXc1XWXWXWXWXWXWXWXWXWXWXWXWXWXWXWXWXWXWXWXWXWXWXWXWXWXWXWXWYWXWXWXWXWXWXWXWYWXWXWXWX",
     "WXWXWXWXWXWXWXWXWXWXWXWXWXWXWXWXWXWXWXXXWXWZXXWXXXYYZXXXYZXXXXWXWXXXWYWXXXYXWXXZWdXXXXXXWX",
     "WXWXWXWXWXWXWYWXWXWXWXWXWXWXWXWYXXWXYXWXWXWXWXWXWXWXWXWXWXWXWXWXWXWXWXWXWXWXWXWXWXWXWXWXWX",
     "WXWXWdXXXYWXZXWXWXWXW9XWXWZWeWcWXYXWXXXmXe1ZWYYZWXWXWXWXWXWXWXWXWXWXWXWbWYWXXY1o1mWXWXWXWX",
     "WXWXWXWXWXWXWXWXWXWXWXWXWfWXWXWXWXWXWXWXWXWXWXWXWXWXWXWXWXWXWXWXWXWXWXWXWXWXWXWXXXWXWXWXWX",
     "WXWYWXWXWXWXWXWXWXWXWXWXWXWXWXWXWXWXWXWXWXWXWXWXWXWXWXWXWXWXWXWXWXWXWXWXWXWXWXWXWXWXWXWXWX",
     "WXWXWXWXWY1b2Qf1bXWbWMo2r24pWBsWXWXWXWXWXWXWXWXWXWXWXWXWXWXWXWXWXWXWXWXWXWXWXWXWXWXWXWXWXW",
     "XWXWXWXWXWXWXWXWXWXWXWXWXWXWXWXWXWXWXWXWXWXWXWXWXWXWXWXWXWXWXWXWXWXWXWXWXWXWXWXWXWXWXWXWXW",
     "fWXWXWXWXWXWXWXWXWXWXWXWXWXWXWXWXWXWXWXWXWXWXWXWXWXWXWXWXWXWXWXWXWXWXWXWXWXWXWXWXWXWXWXWXW",
     "XWXWXWXWfdebgdedebhWXWXWXWedudededeahahZiaha8bWaWZYYYYWZacWXWXWXZYZgXbWwlpWPov1Pm1l1mWXYYW",
     "XWXWXZXWYWeYXWXWXWXWXWXWXWXWXWXWXWXWXWXWXWXWXWXWXWXWXWXWXWXWXWXWXWXWXWXWXWXWXWXWXWXWXWXWXW",
     "XWXWXWXWXWXWXWXWXWXWeWXWaWUAjWXWXWXWXWXWXWXWXWXWXWXWXWXWXWXWXWXWXWXWXWXWXWpWXWXWXWXWXWXWXW",
     "XWXWXWXWXWXW4dWXWXWXWXWXWXWZWXWXWXWXWXWXWXWXWXWXWXWXWXWXWXWXWXWXWXWXWXWXWXWXWXWXWXWXWXWXWg",
     "WXWXXXWXWXWXWaWXWYWXWZWXWXWXWXWXWXWXWXWXWXaXaXWXWXWXWXWXWXWXZXWXXZWbWXWXWXWuWLPhv16b1d4e1Z",
     "4ygXkXcXX1Ng1o4zr2Pw_LCW_PDWvwvwvwWXXYWYXYZXdwvwXXZYdXcxXXZXaXWZcxvwvwvwvwvwv-u1Xu1Xu1Xu1X",
     "u1XW49r1X20kvcvcv"])]

/-- The ranges of a part in user-perceived characters, by one of its names, in lower case and
without separators. -/
def clusterRanges? (name : String) : Option (List (Nat × Nat)) := Table.rowRanges? clusterRows name

/-- The ranges of a part in words. -/
def wordRanges? (name : String) : Option (List (Nat × Nat)) := Table.rowRanges? wordRows name

/-- The ranges of a part in sentences. -/
def sentenceRanges? (name : String) : Option (List (Nat × Nat)) :=
  Table.rowRanges? sentenceRows name

end FlowSafety.Unicode.Break
