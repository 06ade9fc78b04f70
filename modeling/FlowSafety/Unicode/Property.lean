import FlowSafety.Unicode.Category

/-!
# Properties

The properties that a character has or has not, at version 16 of the standard. A row of the table
holds the names of a property and the ranges of its characters in the notation of `Table.ranges`.
-/

namespace FlowSafety.Unicode.Property

def rows : List (String × String) := [
  ("ahex asciihexdigit",
    "1mfdbwb"),
  ("alpha alphabetic",
    String.join [
     "2Xvcv1lWgWaWbsX-XEfahkadWXW2sWznXXYZXWcWXYXWXpX2oX4ge5bX1bYWc1e1djXWXXXXXWewaZzgb1tXck3bXd",
     "adaYgYYWm1lj3au1WfXaWbtYopudgbtXbeWe1fghZcc2hXlXYakjoXdYXYrXcXWZZZdYXYXXWeWaXXaiXgWaYXbaXY",
     "rXcXXXXXXaaaXYXaWdZXWnbhYXeXYXrXcXXXaZeXYXXZWlZrZaYXdYXYrXcXXXaZdYXYXfXaXXajWmXXbZYXZZXXWX",
     "XZXZYZhaaZYXYZWcW1eiXYXsXlZdXYXYeXXYYWYZyZXdXYXsXfXaZdXYXYeXcXXZjYiiXYX1eYdXYXYXWbZdasbXYX",
     "nZtXeXWYcebXWXdoXj1vbccW1pXXWXaXtXWXoXYYaXWcWkZ1WW1_dX1ZaoalX1Z2Z1sXWYam1_gZY1bXWbWY1gXAiX",
     "ZYcXWXZY1eXZY1WXZYcXWXZYkX1uXZY2Y1blm2rYbZJhYmXvb2gZgdphqipiiXYXXi1pYokWaW2Z2ud1gb2bg-Xhae",
     "tzYah1hav1sxa1-Yp1oWtXhY1n1pXkXd1p1fYZg1hXgk1ssYg1ZYgb1gYY1fZXbXXZWb5_p1Xh8rYbY1bYbYdXWXWX",
     "WX-Y1qXcXWZYXcZZYbaibYXc3qWjWmi3bWaWYfXWZacWXWXWXZXgYZbaaWn1ePj1p1Os7acZZXi1bXWbWY1tdWmsfc",
     "XcXcXcXcXcXcXcX_1lWErYvedaYaa2rcYX2vXZb1gX2zn_1mlGW6D_2WLKi2Z1jY8iZlgXq1kbdZ3m1deY3cY2YYXX",
     "WXdrpX1Wu1pi2ZXW1ibZWXYg1Wb1YjyZ1oXhlWmlgaX1sfjosZ2aXWXWuYYlYZhbYbYbfcXcX1gXjc3wrATZisa1m8",
     "8aBjY3f1cciabhXiXaXWXXXXX3h1XBgo1_Y1r1eh3qaX4c1avcvh2uZbYbYbYY1ZhXvXoXXXkYj1Y3w2b1q8hyZ1m1",
     "l_jzb1gbzY1ZadXa1g4zo1Za1Za1de1pigXkXcXXXgXkXcXXZ1pi9sfrgdubX1fXe2bbYWX1hXXZWYsgsf-2XoXXgr",
     "gv2c1tcX2WZXXbdXYXy1gyZy1ZdXxx1rgrgojn3k2e1t1oj1oj1d1YxZWbs7w1fXXZXmY1tWZygWer1gn1kqxsf2b1",
     "hag1ufWjut1onZe1YZWf1_XZfXgWXW1ZnX1XYWcZ1-cXWXZXkXfd1utZXdYXYrXcXXXaZdYXYXZWcWbcyfXWYWX1bX",
     "fXWYWXZXXZWXW1i2XXYXZqY-2XYXXW5u1rYcvb1Y1-XWZW1x1rYW2dwYjrc5v1u3d1__dYWYdXXXzXXYXYZ2zdY1jY",
     "bXWXXx1oYfn2dbWo2e6d1W_eX1iXcXW1nzYrXj2fcXXX1hZWXXXYXWYXubXXX1aXXXZXWAdsfmX1eZY3lW2lSv3c3k",
     "n6Z2Ii3Wl11lnbv3SwbIc6Lv1k1MnHud-n2knzo1lmZ_qboDm1i6p1_4W2ga1udm2WXXWiXk5Vte16r1ff8NdZXcXX",
     "X9YlWzYYWkZeCh28a3gbiZedfaW5RX2qX2cXXYWYXYZXhXWXcX2WXZYdXcXxXZXaXWZcXApYuXuX-XuX-XuX-XuX-X",
     "uXd1Pq-cb6rcXmYcXXXab1z1XW3m1igcmWAXzo1hFax7azYWFlcXZXXXkX6a1x2ZZWZW15qZXwXXXWYWXfXZXWXWcW",
     "aWXWXWXYXXXWYWXWXWXWXWXXXWYZXcXZXZXWXfXmbYXaXmJqvcvcv3Js19M_1W41vc6zY5KXk79mlJj2DYGz1FY4Qg",
     "b42_"]),
  ("bidic bidicontrol",
    "1GyW6FnXwa1tZ"),
  ("bidim bidimirrored",
    String.join [
     "1eXoWXWyWXWzWXW1jWlW3J-Z1QzX2CyXgX1sXkX5nW6WZZbZWZXZZXZXWXWaebWXnbZfXXWXdX_YZbWfXYobXfaYXa",
     "tYleZqXdX11zj2gWYZXXXYbZbYZjCprYbXjeWdbZWaaXXYaaWXYYXgbYXioXZYWXWYWXZbXcYuXhXaZXXYXa1gYdX1",
     "dbWXWZabYaWZaXW8WWGZZZXXXkXYf1hdDhfYd1JHzbbX5YXoWXWyWXWzWXWXXXX1LRtW1vW1vW1vW1vW"]),
  ("ci caseignorable",
    String.join [
     "1dWcWhW1ZWXW2dWaWXWaWYXFt5_aXaWfXXW7xc6lWbW1n1iXWXXXXXW1iWhbggXW1ZWgqmW3bdXfXZ1XWXW-w2xg1w",
     "gaWYWut1hY1iWdXbe1f1v1tWXWadaWZcgXjWlW1wWaZeWqXwWYX1vWaXaXYYZW-XZWhX1vWaaXXaWqXsbXW1wWYWXZ",
     "eWdXhX-W1zWiW1oWZW1tWXYbYXZdXhXzW1wWYWcWbXqXyX1vXaZeWqXzW2eWdYXW2wWYche3YWYefWXc2fXxWXWXW1",
     "tjXaXXbgX1ZfW3cZXbXXYXvXaYmZjWYXcWlW2-WJWYToYzX-X-X2WXXceWYgZWbW1ja1pW2XX1YW3sYaXfWcY6xXYW",
     "1wWXcXWXWYdcfYW1dWe-1nZ1mWXaXWbW1eeiX1WZYXXY1uWXXZWXY1wdYX2Wb2oYXiXcaWcWZX1o1-jW1Y3aDzWXYh",
     "YjYjYjXiaeXgWYWYa1naXfXWjWmi1p1W2ShX3nY3zWlW3W_1lWErW1aZZabW2zb2zYROsW17Yb8kW3YZXfXWyZ2mXk",
     "1X2kWtY3dYZXeWZWaWvXbW4tXwnjW1cdvg1kY1mWYZYXnWrX2YbYXYXiWeW1ZWhW1pWXYYXbXXWxWkXbXXW3aafY3v",
     "WYWaWJPmW4pmHzlZWil1YWYW5fWdWcWhW1ZWXW1lW1jX2ZWrYGXW7YW4ra10bbX1fXeIcYXXbZ1eYaW5bXHzZ1cWwa",
     "XW9xX2lZ2cg1nZ3xW1sk1fWYXgY1nZYXYWaWgW1oY1aaXd1-WiX1qegZYW2_YYWXXcWYW4zWZdrX1vXZW1bcZa2cbj",
     "WXWXWkX2rdYYXWtW2qbXWaXXX7kZcXXXxX2rdYWXX3gWXWYbXW3bWXWYZXa8ZeXX8WXXWaW4mZYXaW1Wf1ebYZeWfb",
     "YY1kiXXCscXbXW2orYcXXXX3wbZWXXXcXW2eXZWXWAxXhX1qabWXWtW56rmckB6ehZY2EWa1xcfZFyY1eXFYW1_m2W",
     "XXXG0hZXcXX34-XXZ4Iy1jYsHWYflYc-Z4qY1Tx1sa1neWkWsaXk1AmcXmYcXXXab1z1XW5WjBmW1zZFxa7-XNWc3j",
     "d2LlaO30XW-2_4W7l"]),
  ("cased",
    String.join [
     "2Xvcv1lWgWaWbsX-X6YXZa6lX1ZdX-a3WW1gZYXYZXWcWXYXWXpX2oX4ge5bX1bf1e2Ot1bXWbWY1gXZLW2rYb24Yg",
     "b1gYY2W5_2W8rYbY1bYbYdXWXWXWX-Y1qXcXWZYXcZZYbaibYXc3qWjWmi3bWaWYfXWZacWXWXWXZXbaWYZbaaWn_Z",
     "XPn1p1Os7acZZXi1bXWbWU8o1joz4a3bZZX1zYXXWXdraXYPr1gXjc2lJQWcia10fvcv15b2l3W1Za1Z3qgXkXcXXX",
     "gXkXcXXEZWYYX1fXe16b1oj1o2zrgr2Ow1_LBW1_PCW2qX2cXXYWYXYZXhXWXcX2WXZYdXcXxXZXaXWZcXApYuXuX-",
     "XuX-XuX-XuX-XuXd1PqfXpcb8b1z24o2Z1Vivcvcv"]),
  ("cwcf changeswhencasefolded",
    String.join [
     "2Xv2wWgsXd1WWXWXWXWXWXWXWXWXWXWXWXWXWXWXWXWXWXWXWXWXWXWXWXWXWXWXWXWYWXWXWXWXWXWXWXWXXXWXWX",
     "WXWXWXWXWXWXWXWXWXWXWXWXWXWXWXWXWXWXWXWXXXWXWXWXXXWXXXYYZXXXYZXXXXWXWXXXWYWXXXYXWXXZWdXXXX",
     "XXWXWXWXWXWXWXWXWYWXWXWXWXWXWXWXWXWYXXWXYXWXWXWXWXWXWXWXWXWXWXWXWXWXWXWXWXWXWXWXWXWXWXWXWX",
     "WXWXWXWXWdXXXYWXZXWXWXWXW7sW1gWXWZWeWcWXYXWXXXmXesWiYZXXWXWXWXWXWXWXWXWXWXWXWXWXXYXXWXXY1o",
     "1mWXWXWXWXWXWXWXWXWXWXWXWXWXWXWXWXWfWXWXWXWXWXWXWXWXWXWXWXWXWXWXWXWXWXWXWXWXWXWXWXWXWXWXWX",
     "XXWXWXWXWXWXWYWXWXWXWXWXWXWXWXWXWXWXWXWXWXWXWXWXWXWXWXWXWXWXWXWXWXWXWXWXWXWXWXWXWXWXWXWXWX",
     "WXWXWXWXWXWXWXWXWXWY1b1mW2Ou1bXWbWPgb24Yfc1gYYAWWXWXWXWXWXWXWXWXWXWXWXWXWXWXWXWXWXWXWXWXWX",
     "WXWXWXWXWXWXWXWXWXWXWXWXWXWXWXWXWXWXWXWXWXWXWXWXWXWXWXWXWXWXWXWXWXWXWXWXWXWXWXWXWXWXWXWXWX",
     "WXWXWXWXWXWXWXWXWbXYWXWXWXWXWXWXWXWXWXWXWXWXWXWXWXWXWXWXWXWXWXWXWXWXWXWXWXWXWXWXWXWXWXWXWX",
     "WXWXWXWXWXWXWXWXWXWXWXWXWXWfdebgdedebhWXWXWXWedm1lYYYbbYYbhZiabYYb9fWZXcW1jlpWPov1Pm1l1mWX",
     "YYWXWXWXZXWYWeYXWXWXWXWXWXWXWXWXWXWXWXWXWXWXWXWXWXWXWXWXWXWXWXWXWXWXWXWXWXWXWXWXWXWXWXWXWX",
     "WXWXWXWXWXWXWXWXWXWXWXWeWXWaWUAjWXWXWXWXWXWXWXWXWXWXWXWXWXWXWXWXWXWXWXWXWXWXWpWXWXWXWXWXWX",
     "WXWXWXWXWXWXWXW4dWXWXWXWXWXWXWZWXWXWXWXWXWXWXWXWXWXWXWXWXWXWXWXWXWXWXWXWXWXWXWXWXWXWXWXWXW",
     "XWgWXWXXXWXWXWXWaWXWYWXWZWXWXWXWXWXWXWXWXWXWXaXaXWXWXWXWXWXWXWXZXWXXZWbWXWXWXWuWRw2lJQWcia",
     "10fv16b1d4e1Z4ygXkXcXX1Ng1o4zr2Pw_LCW_ULW1X"]),
  ("cwcm changeswhencasemapped",
    String.join [
     "2Xvcv1wWgsX-X1_X2pXxYjYXXWa2yXncwXXXWXXZXXZXaYWXXYWdWYWXXZbbWgX5cW1gZYXZYXWcWXYXWXpX1kZ1WX",
     "aX4ae5bX1bg1c2Ou1bXWbWY1gYYLW2rYb24Ygb1gYY5vWZWmW3n4xYWX3rYbY1bYbYdXWXWXWX-Y1qXcXWZYXcZZYb",
     "aibYXc9fWZXcWxWn_ZXPn1p1Os3mXXXXd3bdZZXi1bXWbWU8o1jox4cjY1zfkZYYaXuXzYXacuXQyWy2lJQWcia10f",
     "vcv15b2l3W1Za1Z3qgXkXcXXXgXkXcXX1MZ1oj1o2zrgr2Ow1_LBW1_UKW2Z"]),
  ("cwl changeswhenlowercased",
    String.join [
     "2Xv3bsXc1XWXWXWXWXWXWXWXWXWXWXWXWXWXWXWXWXWXWXWXWXWXWXWXWXWXWXWXWYWXWXWXWXWXWXWXWYWXWXWXWX",
     "WXWXWXWXWXWXWXWXWXWXWXWXWXWXWXWXWXWXWXXXWXWZXXWXXXYYZXXXYZXXXXWXWXXXWYWXXXYXWXXZWdXXXXXXWX",
     "WXWXWXWXWXWXWYWXWXWXWXWXWXWXWXWYXXWXYXWXWXWXWXWXWXWXWXWXWXWXWXWXWXWXWXWXWXWXWXWXWXWXWXWXWX",
     "WXWXWdXXXYWXZXWXWXWXW9XWXWZWeWcWXYXWXXXmXe1ZWeWXWXWXWXWXWXWXWXWXWXWXWbWYWXXY1o1mWXWXWXWXWX",
     "WXWXWXWXWXWXWXWXWXWXWXWfWXWXWXWXWXWXWXWXWXWXWXWXWXWXWXWXWXWXWXWXWXWXWXWXWXWXWXXXWXWXWXWXWX",
     "WYWXWXWXWXWXWXWXWXWXWXWXWXWXWXWXWXWXWXWXWXWXWXWXWXWXWXWXWXWXWXWXWXWXWXWXWXWXWXWXWXWXWXWXWX",
     "WXWXWXWY1b2Qf1bXWbWMo2r24pWc1gYYAWWXWXWXWXWXWXWXWXWXWXWXWXWXWXWXWXWXWXWXWXWXWXWXWXWXWXWXWX",
     "WXWXWXWXWXWXWXWXWXWXWXWXWXWXWXWXWXWXWXWXWXWXWXWXWXWXWXWXWXWXWXWXWXWXWXWXWXWXWXWXWXWXWXWXWX",
     "WXWfWXWXWXWXWXWXWXWXWXWXWXWXWXWXWXWXWXWXWXWXWXWXWXWXWXWXWXWXWXWXWXWXWXWXWXWXWXWXWXWXWXWXWX",
     "WXWXWXWXWXWfdebgdedebhWXWXWXWedudededeahahZiaha9fWZXcW1jlpWPov1Pm1l1mWXYYWXWXWXZXWYWeYXWXW",
     "XWXWXWXWXWXWXWXWXWXWXWXWXWXWXWXWXWXWXWXWXWXWXWXWXWXWXWXWXWXWXWXWXWXWXWXWXWXWXWXWXWXWXWXWXW",
     "XWXWeWXWaWUAjWXWXWXWXWXWXWXWXWXWXWXWXWXWXWXWXWXWXWXWXWXWXWpWXWXWXWXWXWXWXWXWXWXWXWXWXW4dWX",
     "WXWXWXWXWXWZWXWXWXWXWXWXWXWXWXWXWXWXWXWXWXWXWXWXWXWXWXWXWXWXWXWXWXWXWXWXWgWXWXXXWXWXWXWaWX",
     "WYWXWZWXWXWXWXWXWXWXWXWXWXaXaXWXWXWXWXWXWXWXZXWXXZWbWXWXWXWuWLPhv16b1d4e1Z4ygXkXcXX1Ng1o4z",
     "r2Pw_LCW_ULW1X"]),
  ("cwt changeswhentitlecased",
    String.join [
     "3Xv1wW1ftXdXWXWXWXWXWXWXWXWXWXWXWXWXWXWXWXWXWXWXWXWXWXWXWXWXWXWXWXWYWXWXWXWXWXWXWXXXWXWXWX",
     "WXWXWXWXWXWXWXWXWXWXWXWXWXWXWXWXWXWXWXWYWXWXYYWXWYWZWbWYWZYYWYWXWXWYWaWYWZWXWYWZWXWaWXXXXX",
     "WXWXWXWXWXWXWXWXXXWXWXWXWXWXWXWXWXYXWXWZWXWXWXWXWXWXWXWXWXWXWXWXWXWXWXWXWXWXWXWZWXWXWXWXWX",
     "WXWXWXWeWYXXWaWXWXWXWXbXXXWXXZXXZXaYWXXYWdWYWXXZbbWgX5cW1hWXWZWZYoWx1YXXZYXWXWXWXWXWXWXWXW",
     "XWXWXWXaXWYWYW1q1lXWXWXWXWXWXWXWXWXWXWXWXWXWXWXWXWXWfWXWXWXWXWXWXWXWXWXWXWXWXWXWXWXWXWXWXW",
     "XWXWXWXWXWXWXWXWYWXWXWXWXWXWXXXWXWXWXWXWXWXWXWXWXWXWXWXWXWXWXWXWXWXWXWXWXWXWXWXWXWXWXWXWXW",
     "XWXWXWXWXWXWXWXWXWXWXWXWXWXWXWXWXWXW1n1c3Jmb24YeXW7kWZWmW3oWXWXWXWXWXWXWXWXWXWXWXWXWXWXWXW",
     "XWXWXWXWXWXWXWXWXWXWXWXWXWXWXWXWXWXWXWXWXWXWXWXWXWXWXWXWXWXWXWXWXWXWXWXWXWXWXWXWXWXWXWXWXW",
     "XWXWXWXWXWXWXWXWXWXWXWXWXWXcbWXWXWXWXWXWXWXWXWXWXWXWXWXWXWXWXWXWXWXWXWXWXWXWXWXWXWXWXWXWXW",
     "XWXWXWXWXWXWXWXWXWXWXWXWXWXWXWXWXeebgdedebgdedejYdededeaXXcWZYXXeZYXedgYXXAsW1XlaWQhv1Qc1l",
     "XWZXXWXWXWcWYWgWXWXWXWXWXWXWXWXWXWXWXWXWXWXWXWXWXWXWXWXWXWXWXWXWXWXWXWXWXWXWXWXWXWXWXWXWXW",
     "XWXWXWXWXWXWXWXWXWXWXWXWeWXWaWi1bXWbWU8pWXWXWXWXWXWXWXWXWXWXWXWXWXWXWXWXWXWXWXWXWXWXWpWXWX",
     "WXWXWXWXWXWXWXWXWXWXWXW4dWXWXWXWXWXWXWZWXWXWXWXWXWXWXWXWXWXWXWXWXWXWXWXWXWXWXWXWXWXWXWXWXW",
     "XWXWXWXWXWgWXWYWXWXWXWXWaWaWXXYWXWXWXWXWXWXWXWXWXWhWXWXWXWXWXWXWXWaWXWYWZWbWXWXWwWQyWy2lJQ",
     "Wcia11fv16j1d4e1Z4xgXkXcXX1OZ1o3zr2Pw_LCW_ULY1X"]),
  ("cwu changeswhenuppercased",
    String.join [
     "3Xv1wW1ftXdXWXWXWXWXWXWXWXWXWXWXWXWXWXWXWXWXWXWXWXWXWXWXWXWXWXWXWXWYWXWXWXWXWXWXWXXXWXWXWX",
     "WXWXWXWXWXWXWXWXWXWXWXWXWXWXWXWXWXWXWXWYWXWXYYWXWYWZWbWYWZYYWYWXWXWYWaWYWZWXWYWZWXWbXXXXXX",
     "WXWXWXWXWXWXWXXXWXWXWXWXWXWXWXWXXXXXWZWXWXWXWXWXWXWXWXWXWXWXWXWXWXWXWXWXWXWXWZWXWXWXWXWXWX",
     "WXWXWeWYXXWaWXWXWXWXbXXXWXXZXXZXaYWXXYWdWYWXXZbbWgX5cW1hWXWZWZYoWx1YXXZYXWXWXWXWXWXWXWXWXW",
     "XWXWXaXWYWYW1q1lXWXWXWXWXWXWXWXWXWXWXWXWXWXWXWXWXWfWXWXWXWXWXWXWXWXWXWXWXWXWXWXWXWXWXWXWXW",
     "XWXWXWXWXWXWXWYWXWXWXWXWXWXXXWXWXWXWXWXWXWXWXWXWXWXWXWXWXWXWXWXWXWXWXWXWXWXWXWXWXWXWXWXWXW",
     "XWXWXWXWXWXWXWXWXWXWXWXWXWXWXWXWXW1n1c2Qe1gYYNub24YeXW7kWZWmW3oWXWXWXWXWXWXWXWXWXWXWXWXWXW",
     "XWXWXWXWXWXWXWXWXWXWXWXWXWXWXWXWXWXWXWXWXWXWXWXWXWXWXWXWXWXWXWXWXWXWXWXWXWXWXWXWXWXWXWXWXW",
     "XWXWXWXWXWXWXWXWXWXWXWXWXWXWXWXcbWXWXWXWXWXWXWXWXWXWXWXWXWXWXWXWXWXWXWXWXWXWXWXWXWXWXWXWXW",
     "XWXWXWXWXWXWXWXWXWXWXWXWXWXWXWXWXWXWXeebgdedebgdedejY1qXXaWXWZYXXaWZZYXedgYXXaWAnW1XlaWQhv",
     "1Qc1lXWZXXWXWXWcWYWgWXWXWXWXWXWXWXWXWXWXWXWXWXWXWXWXWXWXWXWXWXWXWXWXWXWXWXWXWXWXWXWXWXWXWX",
     "WXWXWXWXWXWXWXWXWXWXWXWXWXWXWeWXWaWi1bXWbWU8pWXWXWXWXWXWXWXWXWXWXWXWXWXWXWXWXWXWXWXWXWXWXW",
     "pWXWXWXWXWXWXWXWXWXWXWXWXWXW4dWXWXWXWXWXWXWZWXWXWXWXWXWXWXWXWXWXWXWXWXWXWXWXWXWXWXWXWXWXWX",
     "WXWXWXWXWXWXWXWgWXWYWXWXWXWXWaWaWXXYWXWXWXWXWXWXWXWXWXWhWXWXWXWXWXWXWXWaWXWYWZWbWXWXWwWQyW",
     "y2lJQWcia11fv16j1d4e1Z4xgXkXcXX1OZ1o3zr2Pw_LCW_ULY1X"]),
  ("dash",
    "1jW1AyW1pW3IXW10bW20fb1zW1dWlWCcW30aWYW_XaWyWD-WpW3lW1JCmX1bWgW5fW3JWW9-W"),
  ("di defaultignorablecodepoint",
    "5jWLXWMiW2QYX1IpX2ra1Vxawa1nl47qW1J4xl7lW5WW2le1F5dZ56ldOBKb3V_"),
  ("dep deprecated",
    "AfW19fW28ZWXW21fX26bbLvXRN6sW"),
  ("dia diacritic",
    String.join [
     "2-WXW2dWcWaWYXFt4-XdbbnXaWfX7za6nW1tmXwXWXXXW4cdaX4cXaXZY2Zw2xg1wg1YX3-d1ffmx1zWmWZZyW2gWm",
     "W3kWmW3kWmW1lY1yWmWdW3tW3kWmW3kWmW3jXmW3yW3lWibXW3hWja2hXxWXWXWaX2YYXX1-W3mWXX1eXaavcXWgXM",
     "XYTqX-W4qgfWAxY9aWqdYW1mkYg3eWlW1ce1sX1wWhX2YX2Wb2ouaWcWYY1o1-2vh1bgDzWXYhYjYjYjX37mY9zWFw",
     "b3fZ2_WTBoWiXXWyX2oXk1X3cY3jXiW1bW4tWxn1vZ1aW2_WiW1aW4rY2XZ1pW3aafY4WXJPmWOXl8kWXW1lW1jX2Z",
     "WNyW14_bX1fXeJzYaW5bXHxb1cWwaClY2cg1nZ6WW1fW2eX3uX1-W2iWfY3eX5oX2mXmWucZa2vYXXjX2_WZW3xX7x",
     "X3-W3sX3pW8jX8YXaW4yW2pWoW2nWDbW8YWXX2nWDfXtW57ikB6vW2EWa1xcHqXHYm2mXFV-ZXcXX7OX1jYsHWYZbe",
     "dYc-Z3KY1z6YcBtW1zZN-XNWc3jYXY"]),
  ("emoji",
    String.join [
     "1ZWcWbf3lWaW7SjWiW6uWsW2wblXBlXiW5cWvgaY6dW7dXgWfW1wZXafWYWYXYWaWYWXXYWZWZXeYbWXWbhhXYWXXX",
     "WoWYXobXWXXZXbWYXaXhXbXYWbXXWXXqXbbXZYWaWYWYbXWYWXWXWcWZWcWgXlWYWaWXWaYXWhX1mYfWkWkWBqXElY",
     "pX1pWaW16wWiWIvWXW3FBgW6gW5WXiXkWYf2hvXXtWqWYerX5k1XY3lYXXYY2oYYX8cX1-hbXtdXYdiWYZYWaXjXYW",
     "eXfWbYiYeYYWXWaWcWZWc2r1m2bbdYYafZWXXZWYf7ZhaW8x1kXfX5u3miZfb1tdkYgce"]),
  ("ecomp emojicomponent",
    "1ZWcWbf7UpW6rW1N9hW1SUsvFxa1DmZO1Ji2_"),
  ("emod emojimodifier",
    "3SVxa"),
  ("ebase emojimodifierbase",
    String.join [
     "9GzW6xWmZ3J3tW1yYYWYY3rXYgroZWaYXYdWXWuW6fXaWrWaX5kYZa2pWmYfWhWH_WYWedcWffYY1uW1zXXXXWnYXi",
     "7bY1ge"]),
  ("epres emojipresentation",
    String.join [
     "8OwX6jZZWYWGfXrX1oh1hWpWjWeXnXbXeWbWrWdXXWaWYWdWaXyW1ZWXWaYXW1zYuWkWQxX1pWaW3H5kW6gW5-WYf2",
     "hvXWuWqWYaXYrX5k1WieX2bXri1gaaimZWZ2cXWX5wY1-jZXtoWwXjW2s2q1m2bcWZYYYaZhXde7ZhaW8x1kXfX5u3",
     "miZfb1tdkYgce"]),
  ("extpict extendedpictographic",
    String.join [
     "5fWaW7SjWiW6uWsW2wblXBlXiW2_W2cWvgaY6dW7dXgWfW1wZXbXhX3ng3rYgXWXWcWZWcWgXlWYWaWXWaYXWha1jY",
     "fWkWkWBqXElYpX1pWaW16wWiWIvWXW3FBc7_jY_W1ybiXkWYfo1uxkgWqWYeXZfDnb9ze8f1m3_3qh2r1giZ1udgb1",
     "ed-2ni1kXfXDu8WVz"]),
  ("ext extender",
    String.join [
     "5tWGuXRkWDvWJsW4fW2vWNmW3_W2AZW1uWJZWCkW2aW4SfW1ha3dX2zYROsW1FsWUYWsW4fW3iWrXL3xW20mX1EhWx",
     "WaW16dW9bW3qXFoY16lWK5fX14yXXWSAuX15nWQqY"]),
  ("grbase graphemebase",
    String.join [
     "1W2-1XiXIn3mdYbacXWXpX6_d5bX1bY1nYY1kWXWYWYWfwabnfhWX1jrlX3aeWcXYWa_YWXzz2uhWk1gfcZtaWfWZW",
     "dkXubWXgb-n1f1v1sXWXZeZXYdfYyXXXdYXYrXcXWZZZWXXcXYXXWjXXYatbWXbaXYrXcXXXXXXaYuZXWdfYYXWiWX",
     "eXYXrXcXXXaZZeWXXZWlXahdWeXXdYXYrXcXXXaZWYWcXYXlXXYanhWXbZYXZZXXWXXZXZYZhbWXXZYXYZWrqcYXdX",
     "YXsXlZWZZpYYWYXafdfXgXYXsXfXaZXYWXXuXXXafXYkgXYX1eYWXXbYXYXXaYXfavYXXnZtXeXWYcfXccdfYYi1lX",
     "Xhdei1bXXWXaXtXWXfXXfWYaXWffYZ1WtYwXWXWXjX1ZoWbWYa1ndXbXi1b1iaWcWYXYuYZZlaiXXYbXkX1dXWbWYB",
     "uXZYcXWXZY1eXZY1WXZYcXWXZYkX1uXZY2YbyZvc2rYbYKyZ2udnjoZXfnkiXYl1pYWddXXheZfcfcgbfc2udaY1XX",
     "Wb2bg-aZYYaXXbdWZ1fYah1havcgZ1uYXZ1tXWfWXXebjfcfcj2s1lgZZdXyfhY_aXc1tXWYYXWj1leXbkZ1zb1gYg",
     "hWjWdZXbXYYWb5_2W8rYbY1bYbYdXWXWXWX-Y1qXkXjYbXoYYXeXgbtd1mmXYwXiZ1W1_4haKvsgr1OpY_XAtZXb1i",
     "XWbWY1tdXlsfcXcXcXcXcXcXcXc1X2z1YvX2ui6rw1vclX2ra3ab1gX2zX2rf1lXSJiZ1sfAxq1kaWg_Y2lYbe6jYX",
     "XWXdrlXYXZXuYaafc1te2ZghuiX1beuhWizc1lXXaXYXXiXgacXuX1ecXYXhYXdXWYfY_X1oXWZXYaYWXWumYdhbYb",
     "YbfcXcX1xa3qXXXZZfcATZisa1m88aBjY3f1cciabWXtXaXWXXXXX3ymDyY1rdW1Wlmfs1YXoXZaaX4ca4yY-ZbYbY",
     "bYYZcXcjXYhXvXoXXXkYj1Y3wbYa1iZ2tXiZW1l1i4ZyZ1mmwa1Zfzb1bgzX1aaj1g4zYfc1Za1Za1de1phhXkXcXX",
     "XgXkXcXXZ1pi9sfrgdubX1fXe2bbYWX1hXXZWYsX2dee1moXXb1WZwbW2W1tapY1klZXYXygeded1_1W1achf1rZyY",
     "wbvdZic2m2e1t1oj1od1fifc1beteX6m-X1fZWYXmY1x1derhesnaZ1cxqsfWX1rlcazXXYWi1maXYXXZkudff1ZbW",
     "fne1YXYh1pfWXdaXXlXphnXxZXabXX1_cXWXZXkXgc1kXYjfeXXdYXYrXcXXXaZWXWXZYXYXZWicyfXWYWX1bXWXXl",
     "WXXZWXYXX1d1teXZWXqXWXY-1lXXcWXXXWYWYZef5c1kXXcZYWYw1a1oeXXWYZhfcip1gXWXXeXcfcpywZWXXaWfs5",
     "v1kfWYW3a2oidYWYdXXXtXaXXcZXYff2cdY1feZXZxWg1dcXadfWcXZ1jjWYej2edf5s1XkfceX1bkWXbgyZ_vWdWY",
     "W2hcXXX1brWffcbXXX1aaXXWXWdf9soYZfkX1ZeXZs2sWl1njSw3c3kXah6Z2Ii3Yj11lnbv3SwbIc6LvziYZf1McH",
     "ud-Xfa2mXfczdWg1ldkgfXcXqboDm1v6c2w3b2gb1thi2WZy5Vte16r1ff8NdZXcXXX9YlWzYYWkZeCh28a3gbiZed",
     "fYWYW3RW7vcDp4y3p1y7rg1cY1xbYsXdza1yr2XZW3wpipi2sfu4d2qX2cXXYWYXYZXhXWXcX2WXZYdXcXxXZXaXWZ",
     "cXApY9ZYHn1tZ1odXjXc13q-cb8b1z4o1igcYfaXAWzo1hafbWEmxaf6szYgaWFWcXZXXXkX6aYe1m2ZdWafaXOn2Z",
     "2i1y6YZXwXXXWYWXfXZXWXWcWaWXWXWXYXXXWYWXWXWXWXWXXXWYZXcXZXZXWXfXmbYXaXm1qX8k1ha3ZikYkXkX1a",
     "g5j1uyj1haedXkb4wUtamZiZ3sa2-chaWlha1tefc1dezYhaX1-ApijYiZfb1tdkYgced4oX3b10c19M_1W41vc6zY",
     "5KXk79mlJj2DYGz1FY4Qgb42_"]),
  ("grext graphemeextend",
    String.join [
     "OW3l8pc8d1iXWXXXXXW2eg1mqmW3bcYbYXXZ1ZW-w2xg1wefWuZXeXYXa1hY1xe1gtX_1tWXWadaWZcgXzW1wWXWYZ",
     "eWfWgXwWYX1vWaXaXYYZW-XZWhX1vWaaXXaWqXsbXW1wWXXXZeWdYgX-W1xWXWiWfW1eWZW1tWXYbYXZdXhXzW1wWY",
     "XXWZYXZdXhXyX1vXXWYZeWfWgXzW2eWaWYYXWeW2nWYcid3YWYehc2fXxWXWXW1tjXaXXbgX1ZfW3cZXbXXYXvXaYm",
     "ZjWYXcWlWL_YToZyYzX-X2WXXceWYgfW1jYXW3rX1YW3sYaXfWcY6xXYW1wWXcXWXWYdcfYW1m-1nZ1mfaY1ceiX1W",
     "ZYb1uWXXZWXa1udYX4uYXiXcaWcWZX6c1_GiW6Z1W2V-Y4jW3W_Hgb3fXTEqZXf1WX2mX8mWZWaWvXbW4tXwnjW1cd",
     "vgXW1iY1mWYZYXYW1aW2ZbYXYXiWeW1lW1pWXYYXbXXW1gXeW7kWYWaWJPmWNXlmlBkXIzW7YW4ra1KcYXXbZ1eYaW",
     "5bXHzZ2Xa9zX2lZ2cg1nZ3xW1sk1fWYXgY1nZYXdW1zY1aaXd1-WiX1qeXWeZYW2_YYZcWYW4zWZdrX1vXXWXWiWfW",
     "kcZa2ZWYbXWYWXYaYXWkX2rdYYXWtW2nWYbXWYWXXXX7hWYZcXXXxX2rdYWXX3gWXWYd3bWXWYZXa8ZeXX7rWgZaW4",
     "mZYXaW1Wf1ebYZeWfbYY1kiXXCscXbXW2orYcXXXX3wbZWXXXcXW2eXZWXWAxXhX1qabYtW57bWckB6ehZY2EWa1xc",
     "10uW1_Z2nWhXJ5hX4JX1jYsG-aZbedYc-Z4qY1Tx1sa1neWkWsaXk1AmcXmYcXXXa3aW5WcBtW1zZFyZ7-XNWc3jcO",
     "5Mr2_4W7l"]),
  ("grlink graphemelink",
    String.join [
     "2AjW3_W3_W3_W3_W3_W3_W3_W3jXmW3yW3lW3_W6fW5qX1MvX-W4zWKjW7ZW3bX2cX4ChWUKcW1bW4tW4kW3iW9rW7",
     "sWNInW1GcW1fWkW1vW3vX4hW3qW5qW3YW4WY3nW3_W7yW3_W3sW3qW8jW8ZX5XW2pWoW2nWDbW8aX2nWDfXGFiW"]),
  ("hex hexdigit",
    "1mfdbwb1VLffdbwb"),
  ("hyphen",
    "1jW3_W16yW4JxW20fX3GbWNZW1JBdW5fW2tW"),
  ("idsb idsbinaryoperator",
    "BVmXYfFnW"),
  ("idst idstrinaryoperator",
    "BVoX"),
  ("idsu idsunaryoperator",
    "BV-X"),
  ("idcompatmathcontinue",
    "5oXbW7TsWZgXkBpWaWsW3D5YWvW_WvW_WvW_WvW_WvW"),
  ("idcompatmathstart",
    "8GYWaWsW3D5YWvW_WvW_WvW_WvW_WvW"),
  ("idc idcontinue",
    String.join [
     "1mfdvaWXv1lWgWXWYWbsX-XEfahkadWXWn3qXXYZXWcaXWXpX2oX4gXaY5bX1bYWc1ee1iXWXXXXXWewaZzgb2fa3b",
     "XdYfXoYWm1wY3ak1raWYWY1joxagbtXbe2gX4WYfXoXdYXYrXcXWZZYeYXYZeWaXXaYhgWXWYYXbaXYrXcXXXXXXYW",
     "XaaXYYZWdZXWdlhYXeXYXrXcXXXaYfXYXYYWlZYffcXYXdYXYrXcXXXaYeYXYYdYaXXaYfXWmXXbZYXZZXXWXXZXZY",
     "ZhaaZYXZYWcWkfmiXYXsXlYeXYXZdXXYYWYZYfmZXdXYXsXfXaYeXYXZdXcXXZYfXYiiXYX1oXYXabZdaYfgbXYXnZ",
     "tXeXWYcZWabXWXdcfYXj1vbkXf1dXXWXaXtXWXsYaXWXcXfYZ1WWtXcfhWXWXWafX1ZapXnX1ZfW1v2fc2jY1bXWbW",
     "Y1gXAiXZYcXWXZY1eXZY1WXZYcXWXZYkX1uXZY2YYYfeklm2rYbZJhYmXvb2gZgdrfrhpiiXYXXi2pZWaXYf1XYXgc",
     "2ud1gb2bg-Xhahg1dYah1havcg1bxa1-XyYgcfjWejXl1n2iZfnei3pi1tefZ1mYgb1gYYmYX1cbGrYbY1bYbYdXWX",
     "WXWX-Y1qXcXWZYXcZZYbaibYXclX1nXpWyWjWmi1piaWZhnWaWYfXWYbcWXWXWXlYZbaaWn1e2Jt7acei1bXWbWY1t",
     "dWltfcXcXcXcXcXcXcXcX_GbYvkXaYaa2rYcX2-b1gX2zn_1mlGW6D_2WLKi2Z1jY8iZxq1lafX3o1beY3cY2YYXXW",
     "Xdr1raWp1pi2bgfctZWX1mY1ZiyZ2Wkgc-X1sfjYfcsZ2euYYlYagbYbYbfcXcX1gXjc3wXXYfcATZisa1m88aBjY3",
     "f1cciabhXiXaXWXXXXX3h1XBgo1_Y1r1ehalmlZXuY1WaX4cpfdvaWXvg2vZbYbYbYY1ZhXvXoXXXkYj1Y3w2b1q4e",
     "W4YyZ1mlW__jzb1gbzY1ZadXa1g4zYfc1Za1Za1de1pigXkXcXXXgXkXcXXZ1pi9sfrgdubX1fXe2bbYWX1hXXZWYs",
     "gsf-2XoXXgrgv2c1tcX2WZXXbdXYXyYYaW1WyZy1ZdXzv1rgrgojn3k2e1t1oj1oj1defc1bZaXs7w1fXXZXmY1t1W",
     "gWe1W_r1gqxsf2c_lf1xdWjudfc1qXfaZe1ZYWf2aaZXiXW1ZnX1acZ1-cXWXZXkXfd1wbfcZXdYXYrXcXXXaXfYXY",
     "YYWcWbcYcZahfXWYWX1bXfXWYWXZXdjXz2gbfaZ-2bXWef5c1rYetb1Y2WZWhf1c1udfcpywYkafcc5v1w3b2frdYW",
     "YdXXXzXXYeif2cdY1jYdXXx1-eWe2fZWo2e6d1WlfceX1iXelfuzYrXj2fcXXX1hZWXXXeefcbXXX1aXXXbdf9ssfm",
     "X1eZajg2rW2lSv3c3kn6Z2Ii3Wl11lmrg3SwbIc6Lv1v1McHud-Xfc2kXfczYah1sfZiffqboDm1iZf6c1_4W2ga1u",
     "dm2WXXXhXk5Vte16r1ff8NdZXcXXX9YlWzYYWkZeCh28a3gbiZedfZX42nfGc1jYsG-aZbedYc-Z4qYDx2qX2cXXYW",
     "YXYZXhXWXcX2WXZYdXcXxXZXaXWZcXApYuXuX-XuX-XuX-XuX-XuXdY1nGW1sa1neWkWsaXk12m-cb6rcXmYcXXXab",
     "1z1XW3m1iZjYfaWAX-n1vEs1f6s1gFbcXZXXXkX6ahc1f2haf15cZXwXXXWYWXfXZXWXWcWaWXWXWXYXXXWYWXWXWX",
     "WXWXXXWYZXcXZXZXWXfXmbYXaXm39qf10c19M_1W41vc6zY5KXk79mlJj2DYGz1FY4Qgb42_LNAm7l"]),
  ("ids idstart",
    String.join [
     "2Xvcv1lWgWaWbsX-XEfahkadWXW4XaXXYZXWcWXYXWXpX2oX4ge5bX1bYWc1e2dwaZ1j1g1ZXX3YXWlXdXgYYWmWXz",
     "z2uhWu1WfXaWbraWfWZWtudgbtXbn1f1w1rZWoWdflladYXYrXcXWZZZWmWjXXYkXgWebaXYrXcXXXXXX_ZXWpYmeX",
     "YXrXcXXXaZWoWlXtWhdYXYrXcXXXaZW-XXYlWnWXbZYXZZXXWXXZXZYZhsW1qdXYXsXlZWwYYWYX-WadXYXsXfXaZW",
     "_XXXlXneXYX1eYWmWbYeYubbnZtXeXWYc1w1lXXic1wXXWXaXtXWXfXXfWYaXWrZ1WW1_dX1Zxa3p1gqWmbaZZWZXd",
     "YaiiWn1bXWbWY1gXAiXZYcXWXZY1eXZY1WXZYcXWXZYkX1uXZY2Y1blm2rYbZJhYmXvb2gZgdnjoknkiXYl1p1ZWaW",
     "2Z2ud1eXWb2bg-1nzYah1hav1ssf1q2oW2z1knd1szjXg1hw1Z1fYg1ZYgb1gYY1fZXbXXZWb5_2W8rYbY1bYbYdXW",
     "XWXWX-Y1qXcXWZYXcZZYbaibYXc3qWjWmi3bWaWYfXWYbcWXWXWXlYZbaaWn1e2Jt7acZZXi1bXWbWY1tdWmsfcXcX",
     "cXcXcXcXcXcHcYvedaYaa2raaX2vXZb1gX2zn_1mlGW6D_2WLKi2Z1jY8iZlgXq1km-Y2l1deY3cY2YYXXWXdrlXYX",
     "ZXsz1pk1n1-bZWXXhxgsvyd1kyWmaXfgaX1etYXdqsZWZ1nXWZXYaYWXWuYYgdYibYbYbfcXcX1gXjc3ozATZisa1m",
     "88aBjY3f1cciabWXfXiXaXWXXXXX3h1XBgo1_Y1r1eh3qaX4c1avcvh2uZbYbYbYY1ZhXvXoXXXkYj1Y3w2b1q8hyZ",
     "1m1l_jzb1bgzY1ZadXa1g4zo1Za1Za1de1pigXkXcXXXgXkXcXXZ1pi9sfrgdubX1fXe2bbYWX1hXXZWYsgsf-2XoX",
     "Xgrgv2c1tcX2WWlZXYXy1gyZy1ZdXxx1rgrgojn3k2e1t1oj1oj1Z1cxfs7w1fcXmY1xygWer1gn1kqxsi1q1vXYWj",
     "1i1Wuw1ZzWYWe1YZWi1lkZrWXW1ZnXupX1_cXWXZXkXfd1k1cdYXYrXcXXXaZWoWia-fXWYWX1bXWvWXW1i1qoZqY-",
     "1lqXXW5u1k1fZ1a1lqW1x1gjW2dw1bc5v1h3q1__dYWYdXXXtlWXW2-dY1cmWXWyWg1ddWrWh1jpWo2e6d1W_eX1an",
     "W1nz3mcXXX1brWvbXXX_kWAdolWXiX1X3yW2lSv3c3kn6Z2Ii3Wl11lnbv3SwbIc6Lvz1NYHud-n2knzo1lmZ_qboD",
     "m1i6p1_4W2gbW2Yi2WXXWy5Vte16r1ff8NdZXcXXX9YlWzYYWkZeCh28a3gbiZedf5Rc2qX2cXXYWYXYZXhXWXcX2W",
     "XZYdXcXxXZXaXWZcXApYuXuX-XuX-XuX-XuX-XuXd1Pq-cb8b1z4o1igcmWAXzo1hFax7azYWFlcXZXXXkX6a1x2Zd",
     "W15qZXwXXXWYWXfXZXWXWcWaWXWXWXYXXXWYWXWXWXWXWXXXWYZXcXZXZXWXfXmbYXaXm4Aa19M_1W41vc6zY5KXk7",
     "9mlJj2DYGz1FY4Qgb42_"]),
  ("ideo ideographic",
    "C0cXvekYUb6D_2WKF_M8WBjY3fT8gWx5Vte16r1ff93dChJ8a19M_1W41vc6zY5KXk79mlJj2DYGz1FY4Qgb42_"),
  ("joinc joincontrol",
    "80iX"),
  ("loe logicalorderexception",
    "3IWa3xa2NmYYW147wXYWXX"),
  ("lower lowercase",
    String.join [
     "3Xv1lWgWaW1atXdXWXWXWXWXWXWXWXWXWXWXWXWXWXWXWXWXWXWXWXWXWXWXWXWXWXWXWXXXWXWXWXWXWXWXWXXXWX",
     "WXWXWXWXWXWXWXWXWXWXWXWXWXWXWXWXWXWXWXWXWXWYWXWXYYWXWYWZXaWYWZYYWYWXWXWYWXXXWYWZWXWYXYYcWY",
     "WYWXWXWXWXWXWXWXWXXXWXWXWXWXWXWXWXWXXYWXWZWXWXWXWXWXWXWXWXWXWXWXWXWXWXWXWXWXWXWXWXWXWXWXWX",
     "WXWXWXWXWXcYWYXXWaWXWXWXWX2aX1ZdX-a3WW1hWXWZWYZoWx1YXXZYXWXWXWXWXWXWXWXWXWXWXWXaXWYWYX1p1l",
     "XWXWXWXWXWXWXWXWXWXWXWXWXWXWXWXWXWfWXWXWXWXWXWXWXWXWXWXWXWXWXWXWXWXWXWXWXWXWXWXWXWXWXWXWYW",
     "XWXWXWXWXWXXXWXWXWXWXWXWXWXWXWXWXWXWXWXWXWXWXWXWXWXWXWXWXWXWXWXWXWXWXWXWXWXWXWXWXWXWXWXWXW",
     "XWXWXWXWXWXWXWXWXW1m1e2Qd1gXZNub24YeXW3r5_2XWXWXWXWXWXWXWXWXWXWXWXWXWXWXWXWXWXWXWXWXWXWXWX",
     "WXWXWXWXWXWXWXWXWXWXWXWXWXWXWXWXWXWXWXWXWXWXWXWXWXWXWXWXWXWXWXWXWXWXWXWXWXWXWXWXWXWXWXWXWX",
     "WXWXWXWXWXWXeXWXWXWXWXWXWXWXWXWXWXWXWXWXWXWXWXWXWXWXWXWXWXWXWXWXWXWXWXWXWXWXWXWXWXWXWXWXWX",
     "WXWXWXWXWXWXWXWXWXWXeebgdedebgdedejYdededeaXXcWZYXXeZYXedgYXX3vWjWmi3jWZXZWxWaWaWYXeZaW1Xl",
     "aWQhv1Qc1lXWZXXWXWXWaWXXXdZWXWXWXWXWXWXWXWXWXWXWXWXWXWXWXWXWXWXWXWXWXWXWXWXWXWXWXWXWXWXWXW",
     "XWXWXWXWXWXWXWXWXWXWXWXWXWXWXWXWXWXXdWXWaWi1bXWbWU8pWXWXWXWXWXWXWXWXWXWXWXWXWXWXWXWXWXWXWX",
     "WXWXWXWpWXWXWXWXWXWXWXWXWXWXWXWXWXY4bWXWXWXWXWXWXYXWXWXWXWXWXWXWXWXWXWXWXWXWXWXWXWXWXWXWXW",
     "XWXWXWXWXWXWXWXWXWXWXfXWXWYWXWXWXWXWaWXWYWXYXWXWXWXWXWXWXWXWXWXWbWbWXWXWXWXWXWXWXWaWXWYWZW",
     "XWXWXWXWXWsYXWXYPr1gXjc2lJQWcia11fv16j1d4e1Z4xgXkXcXXEZWYYX1fXe18b1o3zr2Pw_LCW_PCwvwcXnwvw",
     "ZXWXcXgwvwvwvwvwvwvwvwvwxyuXbwuXbwuXbwuXbwuXbXW1PqfXpcb8b1z25q1X"]),
  ("math",
    String.join [
     "1hWmY_WzWXW1jWaW1bW_WMuYYWwXYYGlY6GjWxYhWZWjWkZraha2XiaWZXaaoWaWYfXWYbcWZXYXXYXbZjXW2atXbX",
     "XaXa_XWcXk8heZqX2wW-wXWuWhcDzXifabaXYXZakWXWYbhdbX1vWXWzZfYAm1_8WF_1mqYb1JUyWPtbXW5YWmYzWX",
     "WzWXW4ZWcZ3DXX1HJm2qX2cXXYWYXYZXhXWXcX2WXZYdXcXxXZXaXWZcXApY9ZY1n5GWZXwXXXWYWXfXZXWXWcWaWX",
     "WXWXYXXXWYWXWXWXWXWXXXWYZXcXZXZXWXfXmbYXaXm1qX"]),
  ("mcm modifiercombiningmark",
    "1IqXYW4ZWcWZXFXXXYZW_W"),
  ("nchar noncharactercodepoint",
    "1VEm_GkX1VV-X1VV-X1VV-X1VV-X1VV-X1VV-X1VV-X1VV-X1VV-X1VV-X1VV-X1VV-X1VV-X1VV-X1VV-X1VV-X"),
  ("oalpha otheralphabetic",
    String.join [
     "QbWziIWjXWXXXXXW2eg1miXcmW3bcaZYXaW1ZW-l3cg3bXZeXYXZ3gW1yhZccp1sXYkXXbYgXzY1wcYXYXgWgXzY1w",
     "aaXYXaW-XZWhY1wdXYXXrXsYaY1wcYXYXfXgX-W1xaZYXYgW1ea1vcXYXYeXhXzY1wcXYXYeXhXlWiZ1wcXYXYgWgX",
     "zY2hbXWXdoX1zWYcoW3ZWYbXXmW5ZofgX1Z3khXWYZtZaYXYYcZZjhXWgZ1JqX-X-X-X2Yo5yX1YW3shae6-a1vfYp",
     "2gXhY1na1mk1yY-eYX1vg1ooCy1X1MX1p27s_U3qd1YXBYWeWta2uX1olXW1vW1cayh1jZ1mh1bW2ZjiWeX1jY1oWX",
     "YYXbW1iabW7jdJPpW22ta1KcYXXbZOqZ2XWAXX2lW8ZY1rj1jXhY1jefW1zY1ahoX1vY1mikX2yeYWcWYW4zftZ1wc",
     "YXYXgWgX2qeXWYWXZXX3diXY3gn7jcYczX2okXW3gg3dj8Xi7tbXXYXZWXW4kcYbaWyf1gaXZog1kjCtdXc2prXj3w",
     "bZWXXXYXWZW2YaXXXZAyZfXXW1mcZYGEzm3HWWX1sdZ2zXJ5iW8RXcXmYcXXXa3aW25tW1Vevcvcv"]),
  ("odi otherdefaultignorablecodepoint",
    "QlW3GlX1IpX25lW47-W1JHxW2leQ00dWXz3W3_7m3Gl"),
  ("ogrext othergraphemeextend",
    String.join [
     "2D-WuWBcWuW3cWuW7eWXWaXXXfX3dWuW3tWlW29rW-W10WWbWXWbX3bW2dX10uW41XXU9ZW3iWLEzX4HWW3qW8eWkW",
     "fW3WWfWYWXYbW7WWiW7nW8cWJvWiW1GZWK5kXOBpXcbOBLj2_"]),
  ("oidc otheridcontinue",
    "5tWMlW3VXe1JeW1HnX47jW1JJfW"),
  ("oids otheridstart",
    "64bX24nWrW3RiX"),
  ("olower otherlowercase",
    "5gWlWFredX-a3WW1qW3CXW31l1-jW1Y1aLnWjWmi6plQmv1SoXUG-X6oW4XYZXRYZfWN0sWYYX1fXe1M3r1z"),
  ("omath othermath",
    String.join [
     "2-WRnYYWwXYX71WWxYhW1WZuXkX2XiaWZXaaoWaWYfXWZacWZXYXXYXbZZba2haYZXXXXXWXaYXaXanYXXWXcXWcX9",
     "YZ5eXXWuWnWDzXiebabXYXZakWXWYbuX1vWXWzZfXAsX_fCpr1_Z1WX1L3ZWXWaW6pWXW1L6X2qX2cXXYWYXYZXhXW",
     "XcX2WXZYdXcXxXZXaXWZcXApYuXuX-XuX-XuX-XuX-XuXdY1n5GWZXwXXXWYWXfXZXWXWcWaWXWXWXYXXXWYWXWXWX",
     "WXWXXXWYZXcXZXZXWXfXmbYXaXm"]),
  ("oupper otheruppercase",
    "8BWlQcv3J3Wvcvcv"),
  ("patsyn patternsyntax",
    "1XkgcwZXWwZ1YcXWXXXWXXaWaWZWtW_W7OutekYoXf9nMl5WJr-13hGW3_CXYaulW1J8jX8bX"),
  ("patws patternwhitespace",
    "faoW3aW7SeXuX"),
  ("pcm prependedconcatenationmark",
    "1GWb6tW1nWCWX2mW21UwWlW"),
  ("qmark quotationmark",
    "1YWaW4ZWlW7QydvX3GdWEfZjY1JHXZ5zWaW2wX"),
  ("radical",
    "BKWvX2ui6r"),
  ("ri regionalindicator",
    "3SFcv"),
  ("sterm sentenceterminal",
    String.join [
     "1XWiWmW1AfW4pY5qW1hY7sW1zWXWZX9bX1NaXOsWaXObW6cX4zX1jWbW9wXBYZ5YXgXYXzY5xX2XXTaWtXfY35lY9o",
     "WjWsXDjWT7yW8kX7ZWZWB-X2sX2_W4uX4pY4mX7vWKHcWYX1xWZX5fWiWmW2XW2NqX17za1iZ5zX3rZ3_Y4XXcWmX2",
     "uXXX3iW9gX3rXBrXbk3fX7vYGbWXW7xX2tXDaXLqX2gXIPfX4bW2XXhWHfX9eWJGcW7FeW"]),
  ("sd softdotted",
    String.join [
     "3fX6aW8vW-W1qWqWAWW3YWXW68fW1pWjWZW4aW4zWDbW6sX2PoW39TbX1oX1oX1oX1oX1oX1oX1oX1oX1oX1oX1oX1",
     "oX24cW9nXwW"]),
  ("term terminalpunctuation",
    String.join [
     "1XWgWXWhXZWP-WeWGXW1vW2eWkWXY5qW1hgXW7hX1sbXd_W8bX17qX5iWab9tXOrdObW3yY2dX4zYZW1dZYX9wXBYZ",
     "5YXgXXYzY5xa1-XTaWtXfY35lY9oWjWaWgWXXZXDiXT7xX8jY7ZaB-X2sX2_W4tY4pY3_WmX7vWKHcWYX1vYXZ5fWg",
     "WXWhXZW2XWYW11wW1mW14cW6dW9sX4ub2ab2vZTua1iZ5zc3mZ3_Y4XXcWmX2ua3iW9gX3rYiXBcZZk3fX7vYGbWXW",
     "7xX2tXaXC-Y1jWKbX2gX19haHFvX4bW2XYgWHfX9dXJGcW7FdZ"]),
  ("uideo unifiedideograph",
    "D0W6D_2WKF_MGkXXWXXgWXWXXYY21Es19M_1W41vc6zY5KXk79mlJj4DY4Qgb42_"),
  ("upper uppercase",
    String.join [
     "2Xv3bsXc1XWXWXWXWXWXWXWXWXWXWXWXWXWXWXWXWXWXWXWXWXWXWXWXWXWXWXWXWYWXWXWXWXWXWXWXWYWXWXWXWX",
     "WXWXWXWXWXWXWXWXWXWXWXWXWXWXWXWXWXWXWXXXWXWZXXWXXXYYZXXXYZXXXXWXWXXXWYWXXXYXWXXZWdWYWYWYWX",
     "WXWXWXWXWXWXWYWXWXWXWXWXWXWXWXWYWYWXYXWXWXWXWXWXWXWXWXWXWXWXWXWXWXWXWXWXWXWXWXWXWXWXWXWXWX",
     "WXWXWdXXXYWXZXWXWXWXW9XWXWZWeWcWXYXWXXXmXe1ZWYYZWXWXWXWXWXWXWXWXWXWXWXWbWYWXXY1o1mWXWXWXWX",
     "WXWXWXWXWXWXWXWXWXWXWXWXWfWXWXWXWXWXWXWXWXWXWXWXWXWXWXWXWXWXWXWXWXWXWXWXWXWXWXWXXXWXWXWXWX",
     "WXWYWXWXWXWXWXWXWXWXWXWXWXWXWXWXWXWXWXWXWXWXWXWXWXWXWXWXWXWXWXWXWXWXWXWXWXWXWXWXWXWXWXWXWX",
     "WXWXWXWXWY1b2Qf1bXWbWMo2r24pWc1gYYAWWXWXWXWXWXWXWXWXWXWXWXWXWXWXWXWXWXWXWXWXWXWXWXWXWXWXWX",
     "WXWXWXWXWXWXWXWXWXWXWXWXWXWXWXWXWXWXWXWXWXWXWXWXWXWXWXWXWXWXWXWXWXWXWXWXWXWXWXWXWXWXWXWXWX",
     "WXWXWfWXWXWXWXWXWXWXWXWXWXWXWXWXWXWXWXWXWXWXWXWXWXWXWXWXWXWXWXWXWXWXWXWXWXWXWXWXWXWXWXWXWX",
     "WXWXWXWXWXWXWfdebgdedebhWXWXWXWed2eZiZiZiahZ8cWaWZYYYYWZacWXWXWXZYZgXbWwlpWPov1Pm1l1mWXYYW",
     "XWXWXZXWYWeYXWXWXWXWXWXWXWXWXWXWXWXWXWXWXWXWXWXWXWXWXWXWXWXWXWXWXWXWXWXWXWXWXWXWXWXWXWXWXW",
     "XWXWXWXWXWXWXWXWXWXWeWXWaWUAjWXWXWXWXWXWXWXWXWXWXWXWXWXWXWXWXWXWXWXWXWXWXWpWXWXWXWXWXWXWXW",
     "XWXWXWXWXWXW4dWXWXWXWXWXWXWZWXWXWXWXWXWXWXWXWXWXWXWXWXWXWXWXWXWXWXWXWXWXWXWXWXWXWXWXWXWXWg",
     "WXWXXXWXWXWXWaWXWYWXWZWXWXWXWXWXWXWXWXWXWXaXaXWXWXWXWXWXWXWXZXWXXZWbWXWXWXWuWLPhv16b1d4e1Z",
     "4ygXkXcXX1Ng1o4zr2Pw_LCW_PDWvwvwvwWXXYWYXYZXdwvwXXZYdXcxXXZXaXWZcxvwvwvwvwvwv-u1Xu1Xu1Xu1X",
     "u1XW49r1X20kvcvcv"]),
  ("vs variationselector",
    "60hYXW1PFmlQ0Nm7l"),
  ("wspace whitespace space",
    "faoW3aWwW5E_W2B_gzXbW1lW3TWW"),
  ("xidc xidcontinue",
    String.join [
     "1mfdvaWXv1lWgWXWYWbsX-XEfahkadWXWn3qXXZYXWcaXWXpX2oX4gXaY5bX1bYWc1ee1iXWXXXXXWewaZzgb2fa3b",
     "XdYfXoYWm1wY3ak1raWYWY1joxagbtXbe2gX4WYfXoXdYXYrXcXWZZYeYXYZeWaXXaYhgWXWYYXbaXYrXcXXXXXXYW",
     "XaaXYYZWdZXWdlhYXeXYXrXcXXXaYfXYXYYWlZYffcXYXdYXYrXcXXXaYeYXYYdYaXXaYfXWmXXbZYXZZXXWXXZXZY",
     "ZhaaZYXZYWcWkfmiXYXsXlYeXYXZdXXYYWYZYfmZXdXYXsXfXaYeXYXZdXcXXZYfXYiiXYX1oXYXabZdaYfgbXYXnZ",
     "tXeXWYcZWabXWXdcfYXj1vbkXf1dXXWXaXtXWXsYaXWXcXfYZ1WWtXcfhWXWXWafX1ZapXnX1ZfW1v2fc2jY1bXWbW",
     "Y1gXAiXZYcXWXZY1eXZY1WXZYcXWXZYkX1uXZY2YYYfeklm2rYbZJhYmXvb2gZgdrfrhpiiXYXXi2pZWaXYf1XYXgc",
     "2ud1gb2bg-Xhahg1dYah1havcg1bxa1-XyYgcfjWejXl1n2iZfnei3pi1tefZ1mYgb1gYYmYX1cbGrYbY1bYbYdXWX",
     "WXWX-Y1qXcXWZYXcZZYbaibYXclX1nXpWyWjWmi1piaWZhnWaWYfXWYbcWXWXWXlYZbaaWn1e2Jt7acei1bXWbWY1t",
     "dWltfcXcXcXcXcXcXcXcX_GbYvkXaYaa2rYXYYX2-b1gX2zn_1mlGW6D_2WLKi2Z1jY8iZxq1lafX3o1beY3cY2YYX",
     "XWXdr1raWp1pi2bgfctZWX1mY1ZiyZ2Wkgc-X1sfjYfcsZ2euYYlYagbYbYbfcXcX1gXjc3wXXYfcATZisa1m88aBj",
     "Y3f1cciabhXiXaXWXXXXX3h1X4gc6vo1_Y1r1efclmlZXuY1XWXWZWXWXWXWX3zpfdvaWXvg2vZbYbYbYY1ZhXvXoX",
     "XXkYj1Y3w2b1q4eW4YyZ1mlW__jzb1gbzY1ZadXa1g4zYfc1Za1Za1de1pigXkXcXXXgXkXcXXZ1pi9sfrgdubX1fX",
     "e2bbYWX1hXXZWYsgsf-2XoXXgrgv2c1tcX2WZXXbdXYXyYYaW1WyZy1ZdXzv1rgrgojn3k2e1t1oj1oj1defc1bZaX",
     "s7w1fXXZXmY1t1WgWe1W_r1gqxsf2c_lf1xdWjudfc1qXfaZe1ZYWf2aaZXiXW1ZnX1acZ1-cXWXZXkXfd1wbfcZXd",
     "YXYrXcXXXaXfYXYYYWcWbcYcZahfXWYWX1bXfXWYWXZXdjXz2gbfaZ-2bXWef5c1rYetb1Y2WZWhf1c1udfcpywYka",
     "fcc5v1w3b2frdYWYdXXXzXXYeif2cdY1jYdXXx1-eWe2fZWo2e6d1WlfceX1iXelfuzYrXj2fcXXX1hZWXXXeefcbX",
     "XX1aXXXbdf9ssfmX1eZajg2rW2lSv3c3kn6Z2Ii3Wl11lmrg3SwbIc6Lv1v1McHud-Xfc2kXfczYah1sfZiffqboDm",
     "1iZf6c1_4W2ga1udm2WXXXhXk5Vte16r1ff8NdZXcXXX9YlWzYYWkZeCh28a3gbiZedfZX42nfGc1jYsG-aZbedYc-",
     "Z4qYDx2qX2cXXYWYXYZXhXWXcX2WXZYdXcXxXZXaXWZcXApYuXuX-XuX-XuX-XuX-XuXdY1nGW1sa1neWkWsaXk12m",
     "-cb6rcXmYcXXXab1z1XW3m1iZjYfaWAX-n1vEs1f6s1gFbcXZXXXkX6ahc1f2haf15cZXwXXXWYWXfXZXWXWcWaWXW",
     "XWXYXXXWYWXWXWXWXWXXXWYZXcXZXZXWXfXmbYXaXm39qf10c19M_1W41vc6zY5KXk79mlJj2DYGz1FY4Qgb42_LNA",
     "m7l"]),
  ("xids xidstart",
    String.join [
     "2Xvcv1lWgWaWbsX-XEfahkadWXW4XaXXZYXWcWXYXWXpX2oX4ge5bX1bYWc1e2dwaZ1j1g1ZXX3YXWlXdXgYYWmWXz",
     "z2uhWu1WfXaWbraWfWZWtudgbtXbn1f1w1rZWoWdflladYXYrXcXWZZZWmWjXXYkXgWebaXYrXcXXXXXX_ZXWpYmeX",
     "YXrXcXXXaZWoWlXtWhdYXYrXcXXXaZW-XXYlWnWXbZYXZZXXWXXZXZYZhsW1qdXYXsXlZWwYYWYX-WadXYXsXfXaZW",
     "_XXXlXneXYX1eYWmWbYeYubbnZtXeXWYc1w1lXWjc1wXXWXaXtXWXfXWgWYaXWrZ1WW1_dX1Zxa3p1gqWmbaZZWZXd",
     "YaiiWn1bXWbWY1gXAiXZYcXWXZY1eXZY1WXZYcXWXZYkX1uXZY2Y1blm2rYbZJhYmXvb2gZgdnjoknkiXYl1p1ZWaW",
     "2Z2ud1eXWb2bg-1nzYah1hav1ssf1q2oW2z1knd1szjXg1hw1Z1fYg1ZYgb1gYY1fZXbXXZWb5_2W8rYbY1bYbYdXW",
     "XWXWX-Y1qXcXWZYXcZZYbaibYXc3qWjWmi3bWaWYfXWYbcWXWXWXlYZbaaWn1e2Jt7acZZXi1bXWbWY1tdWmsfcXcX",
     "cXcXcXcXcXcHcYvedaYaa2rcYX2vXZb1gX2zn_1mlGW6D_2WLKi2Z1jY8iZlgXq1km-Y2l1deY3cY2YYXXWXdrlXYX",
     "ZXsz1pk1n1-bZWXXhxgsvyd1kyWmaXfgaX1etYXdqsZWZ1nXWZXYaYWXWuYYgdYibYbYbfcXcX1gXjc3ozATZisa1m",
     "88aBjY3f1cciabWXfXiXaXWXXXXX3h1X4gc6vo1_Y1r1ef3tWXWZWXWXWXWX3z1avcvh1tY-ZbYbYbYY1ZhXvXoXXX",
     "kYj1Y3w2b1q8hyZ1m1l_jzb1bgzY1ZadXa1g4zo1Za1Za1de1pigXkXcXXXgXkXcXXZ1pi9sfrgdubX1fXe2bbYWX1",
     "hXXZWYsgsf-2XoXXgrgv2c1tcX2WWlZXYXy1gyZy1ZdXxx1rgrgojn3k2e1t1oj1oj1Z1cxfs7w1fcXmY1xygWer1g",
     "n1kqxsi1q1vXYWj1i1Wuw1ZzWYWe1YZWi1lkZrWXW1ZnXupX1_cXWXZXkXfd1k1cdYXYrXcXXXaZWoWia-fXWYWX1b",
     "XWvWXW1i1qoZqY-1lqXXW5u1k1fZ1a1lqW1x1gjW2dw1bc5v1h3q1__dYWYdXXXtlWXW2-dY1cmWXWyWg1ddWrWh1j",
     "pWo2e6d1W_eX1anW1nz3mcXXX1brWvbXXX_kWAdolWXiX1X3yW2lSv3c3kn6Z2Ii3Wl11lnbv3SwbIc6Lvz1NYHud-",
     "n2knzo1lmZ_qboDm1i6p1_4W2gbW2Yi2WXXWy5Vte16r1ff8NdZXcXXX9YlWzYYWkZeCh28a3gbiZedf5Rc2qX2cXX",
     "YWYXYZXhXWXcX2WXZYdXcXxXZXaXWZcXApYuXuX-XuX-XuX-XuX-XuXd1Pq-cb8b1z4o1igcmWAXzo1hFax7azYWFl",
     "cXZXXXkX6a1x2ZdW15qZXwXXXWYWXfXZXWXWcWaWXWXWXYXXXWYWXWXWXWXWXXXWYZXcXZXZXWXfXmbYXaXm4Aa19M",
     "_1W41vc6zY5KXk79mlJj2DYGz1FY4Qgb42_"])]

/-- The ranges of a property by one of its names, in lower case and without separators. -/
def ranges? (name : String) : Option (List (Nat × Nat)) := Table.rowRanges? rows name

end FlowSafety.Unicode.Property

namespace FlowSafety.Unicode

/-! ## Derived classes -/

def whiteSpace : List (Nat × Nat) := (Property.ranges? "whitespace").getD []

def decimalDigits : List (Nat × Nat) := Category.ranges [.nd]

/-- The word characters: letters, marks, digits, connectors and the joiners. -/
def wordRanges : List (Nat × Nat) :=
  (Property.ranges? "alphabetic").getD [] ++ Category.ranges (Category.marks ++ [.nd, .pc]) ++
    (Property.ranges? "joincontrol").getD []

def wordTable : Array (Nat × Nat) := wordRanges.toArray

def isWord (c : Char) : Bool :=
  if c.toNat < 128 then c.isAlphanum || c = '_' else Table.isIn wordTable c

end FlowSafety.Unicode
