import FlowSafety.Unicode.Table

/-!
# Ages

The version of the standard in which a code was first given a meaning, up to version 16. A row of
the table holds the names of a version and the ranges of the codes that are new in it, in the
notation of `Table.ranges`; the versions ascend.
-/

namespace FlowSafety.Unicode.Age

def rows : List (String × String) := [
  ("1.1 v11",
    String.join [
     "WFraz1u2ud1kXfs2bwXoXaWZWbcXWXpX1hXcZWXWXWXWXnjhX2XXhX1ef1qYXYXZxYdYX1t1bYcX1cXW1cfXeiwbat",
     "WkWZWXvbojjY2dYaXkXzYfGdYX1qYnYaZumYXdYXYrXcXWZZYWXcYXYYfWaXXaYqdWYbaXYrXcXXXXXXYWXaaXYYhZ",
     "XWdkiYXcXWXYXrXcXXXaYfXYXYYWlWbfnYXdYXYrXcXXYZYdZXYYeXaXXYagnXXbZYXZZXXWXXZXZYZdXYaaZYXZfW",
     "lhkYXdXYXsXfXaacXYXZdXfXafoXXdXYXsXfXaacXYXZdXdWXXafoXXdXYXsXlabYYXZfWeXaf4n1vay1bXXWYXXWY",
     "WcZXcXYXWXWYXXiXYYaXWXbYfYXEY1bg1caWa2vb2Zb2n30c4wb2vcrYbY1bYbYdXWXWXWX-Y1qXkXjYbXoYYXeX1k",
     "Xs1ZcZwng1bn-1uw1lj2wr7nkWX3u4b1axgr4gr4rg2lmpc2r4nZXZYxX1YXWXZZWXcYck-ZtXj22X1tdWX2pabY2z",
     "c1da2zXl3WyZ1ZyxZ1nlha1kX3sa3YY-6GXKDbG2w6Hj6ociacuXaXWXXXXX3h1XBim1_Y1r1eh1aZiqafXoXZaYXW",
     "X4cYWX2zY2zZbYbYbYYZcXckY"]),
  ("2.0 v20",
    String.join [
     "1CnmXiqW29x2dX1WdwabXWXqZcXW3NXWGlW12QqATZ2A2wX1VV-X1VV-X1VV-X1VV-X1VV-X1VV-X1VV-X1VV-X1VV",
     "-X1VV-X1VV-X1VV-X1VV-400X"]),
  ("2.1 v21",
    "85iW1NQlW"),
  ("3.0 v30",
    String.join [
     "FsZ-dYn3ra1nWga2tepW3qWZWXWXWXW-WiW2YWiW1gXYZ2yX4yW6eY3YXbWlW1gaXjXzZw1r1m1EnXXnZtXeXWYcZW",
     "abXWXdoYBrW1hWtYdWXYXkYW1m1XXaXXXcZZcvDccX1-XWXZYcXWXZY1cXWXZY-XWXZYcXWXZYcXcXsX-XWXZYcX1c",
     "Xocx1Z2qiJrfyZ2m4l2yZfskXfc2te1f1SbWub2_Y1oX2rX2eW3de8jW3vWXz4gXEfd1XW2sXCk7_1CWvX2ui6rwh1",
     "yYZWBXtIe6DrKIg14iZnYlXhXYXWLIsW16xY"]),
  ("3.1 v31",
    String.join [
     "VqX1UEw_18m-XZiw5r1bY1b1ITo7rg1cZ5pHY2qX2cXXYWYXYZXhXWXZXXX2WXZYdXcXxXZXaXWZcXAna9Xa1nA0W1",
     "9MsK9fGzM1FZW-2_"]),
  ("3.2 v32",
    String.join [
     "HWW9kWpi3eXyW4pX1vXYXYX1nlA-XAXW2AbX1GdiXchsfpiiXYXX26pWcaaWdajW1-X1oc2ok5eh7oj3yW-1p8yp4t",
     "f2udsX2whYf6-j2wxal8WF_19xY2tXeX2-W7ml2nk2nkSFYXmWiWZWLBg1wSnWZl1rX1iW7hX"]),
  ("4.0 v40",
    String.join [
     "HXWoY3tX1_m2mdbY4taGaZfe2WY4rXlW1jYzYDqW5uW2ZWXW4eW2qYjW2ZW1xW4Xd6XX2O_Wof8cyZhahaWZ1fYa3h",
     "_OW3hNdX7cWKpX9kW8qX3qdkX12-j1OlX1nW1hX2kZ5dZ3ZX_W6EW1_1BVzW2fXDthXvXoXXXkYj1Y3wbYa1iZeIWz",
     "XW4cX1c2lYfQsbYWX1hXXZWYW1IMW2sBgWOB1-7l"]),
  ("4.1 v41",
    String.join [
     "Htg8sa4_Z7sX5gW1YY2ZWoW1wb7nzGlW2mWFdW1lWVfX9dXXW8gW1_W1_W1dW_W_W_WlW1dWtX_v1Fc1fcvcfaX1Wx",
     "YXQi2tKnXXc1nazZ1rW2mWlWKagHyW3bXogbl8kcQdb7i1kX1k1X3gk1ig1rfWmsfcXcXcXcXcXcXcXc1XtaXTYl5k",
     "WR9dr1Qas7f1hKIa3fPsfPc2gGr1Zaj1HgZXXbdXYXwaYaeee1HTd2b12-X"]),
  ("5.0 v50",
    String.join [
     "IYj9hYAnW1gbmZ5cWGb1wCWXXXRYXjX3Gj2ha1iIdc1pXNiZ2zX1rWIthMgW8qZQfcbZ9yidZUK_ZbX8-1tO4evbW5",
     "NWRk4n3YjZ1BNin12uX"]),
  ("5.1 v51",
    String.join [
     "RmZYX2tW5tW4il7Yaha1Wa9knFnX6-W1ZW6kWzX3iW3iWwXeXqd5zWcWzXibZcFhX3XWZY2jWbWYWdYabw1_aX20gW",
     "Mr1gZh2c1tZkZ1oAhx5rZ2wbBaW4hW2-W1rZ18qWrfZZ8eW_ZPhaa1eZa8uYXYabBY_uZYoNyW5YpREud19y9hq_Yn",
     "ex4ZaY3g3ka4W2afh1c2phW5W1sfjYfYZKUaYRfh1q1j4YyZ1m1IlvbW1HVfW7Ms1ha3Z"]),
  ("5.2 v52",
    String.join [
     "19aXMw1jYk6XW2jWcW1ZX4WW1EvZ6XZ5ya2aa2obGWWJseHm2b5qX1kW2b1-XyYgcfcjHY1Y8gWLuY4tY1sWI-WLrX",
     "zYafXoXWat2tWVza8sWjX3hc9_W10ohRBqd18a1lDW2t9uf5cx3ayZ2jXgaX4Wxa2Yua7W1jYfATssa1m8JlY3EorX",
     "e5wXAa_4W1rZyYwbd4W2eGt-GX2X7P-11k1F6ngb-YWhWXWYWZWZaeWdWvWXXYWgZYW3lWl1Xke1D5t41q"]),
  ("6.0 v60",
    String.join [
     "19cX7uW1-WFWxYW6xXpWcXxaFwbDnWmWpWHzZ2fXSYX23X1peZFyWKudyWPlgMwWpWXZzWaXyW1ZWXWaYfX1qYuWkW",
     "kX1DWWkW11uYT5bX9hXXXkf2mWOcbYbYbfcXcK4Zl51-2jazLSmHuHEdXG4-kYjYkXk2mWXgXWXXXYXYbdXcXfceXW",
     "YXXfaXXf2hvXX1lerX5k1WlbX2bZpi1aXarml1-XWX5rXZZ1zot4paXlXYXWXWXWXYXbYZXWYZXhag1m2b1w3p1FUi",
     "6z"]),
  ("6.1 v61",
    String.join [
     "1ClW3qWKxWXg1twFnWVjXFdWbW1lY2LhYib8Wd1hZ2MqWXW19aX1pWbW1uX6gfSCmW1Ldd1ZW7oXsW2jXNcsJPtX3Q",
     "m1tcX1Omudfc1qXj1y2edf15c1tefM1s2ah1kmmVJWZXwXXXWYWXfXZXWXWcWaWXWXWXYXXXWYWXWXWXWXWXXXWYZX",
     "cXZXZXWXfXmbYXaXm1qXJuXUqZ5yWmWZWXWXWXWZWcXaWXXaW"]),
  ("6.2 v62",
    "85wW"),
  ("6.3 v63",
    "1GyW6IfZ"),
  ("7.0 v70",
    String.join [
     "R_WDed2zX3sWKxWhb2iW3uWdWJ_W1pW2iW3_W7af28XdHaXCnkHvX7jkMbYPscObW12iYgvY_Y1XZhXdJgcU2rb7sh",
     "hYYX2bWFe-3zZ5m1laXKMXcQzXpW9_x1ZW1m1gCb1de1phW4m9sfrgd7u1-eeEm_1W1cah4fndZic16lW6m1c2sWiW",
     "cphnX1g3o1wbfdYXdYXYrXcXXXaYeYXYYfWbcYcZa8h2def5c1rYn1s2ahfIc2oiWEW1u23s1f6ghbWHEh-XfaX3Wz",
     "Ybg2bgfXcXqboK3m3gbiZedfYdAQy6aYl1VeW1WrrXGqhfW2cWsh1bWbZbhnc2dWXW5sWaX1_XacznX1eX2r2cXj1l",
     "2cfmiZZ4i2q1hha1tefc1dez"]),
  ("8.0 v80",
    String.join [
     "25pX1kWGrWBWW8aW1KrWYb36WW6hX2JWZSUze1MeW7mW1YbAaXJYZi2lKJkX2LmoXXba5yXYlY1jKW1oj1odb16fZk",
     "a5WcXWXZXkXg2sW2lWJvp9YvZkal32vW7c6Z7LyIc12Stg1GtKhlaXk63zY2kX2la1ad7_W2ha7pX4hWH_e3da1xW1",
     "FI_5KX"]),
  ("9.0 v90",
    String.join [
     "25sdskSzW6kWaYXctY3OdeBoW1F_Z2IaXUBfW8sWM6dXPX1Za1Z3AYWEX2vXWXWGYi1CpeX1iXjgyZ_YrXjKPfW_5V",
     "ipNoL8jcXmYcXXXa26r2gbfaX21xn4kWP-W1fW9iX1XYHYbXdeWYhXhak1ci"]),
  ("10.0 v100",
    String.join [
     "23WgCnX7ybGWW1wX3TwW7-ZMbWP_W1UoWJoaNaWRLdqOQYY5Mm2de1pYsXaIzcXXX1hZWXXXeefKKdWG1W8y2nChFR",
     "ab13jX1YXGdhpWedXXvWoi1cb1us1L6f79m"]),
  ("11.0 v110",
    String.join [
     "1BWW1dW3cWGjY6pW9gW3tWCjW3_W2VpW10t1gYY3NwYsuakIhaNWWRLxa1T_WeXAaXO9qXoWLt1defEc1de1fBpW3s",
     "YFqW9YWLxW7b1xJXWMYbXXX1aXXXbdf9suJQd2w6AoaINkp3-c67u2Z13wW1EfW6xZBqYyaYZZWXZugjfdX1au3Wj"]),
  ("12.0 v120",
    String.join [
     "33tWGkWYWYWXbaWdWdXYWjW3H_W3MkW1rWIlWUBgbYaS_XP3us13eWIuWNddY1jYg4_X19w1njW51meEOibaW1le2w",
     "X60kbAAuYnZBSu1iZjYfaXBm1vbW1IhWTr1y11kW1BeW1aW7bh9XY1lW1nWfW1fbZXgbZdYY1m2pyZaYbYjb"]),
  ("12.1 v121",
    "CN_W"),
  ("13.0 v130",
    String.join [
     "25-fKjWDkW3yW39zX46sWLuYRea6VsfKHmi1UgZ1gX1rWPxZLHmW37Z1fXYYX7-xBxW4cXKgWbX14-cYWYdXXXzXXY",
     "hff1IsWK1pWhX6OXFY1geP0aY2zY1zW19eX1ZXDpX2wW3bWaX1gXcYzW5eWkZlodcfYjc1f4oX1s1bf1AMzcM9Y4Qg"]),
  ("14.0 v140",
    String.join [
     "1GzWIo-XXcdrWogRfW1WW3_W2HlWdWfW7lWLnj3zW1mXJxWMbW2RkW1lWFpgSC_Y1UWXkXXWXauYKUjWBzl3_W1kX1",
     "RmgXkXcXXXgXkXcXXEZbX1fXe1Trv7cb2iW1FsW4ccRfl56m3YEJz2kXfH9cZXcXX9WZ7Ez1jYsf3pHbX38r-Rn-19",
     "ncXZXXXk3M-Y8mWCeW2oW5kX1iZgZeYnYcdec1AVdX42rZ"]),
  ("15.0 v150",
    String.join [
     "37pWEwW201kYP_Y25-fVsmX1eZx56rWfyV6yW1YW8Bgp32nb8b1z1XW12W1f4FYW4tYaa2vWKxYlX1aYhYXWkXgXiW",
     "kX1F2WWN0s42_"]),
  ("15.1 v151",
    "BVyZFlW5EGWJj"),
  ("16.0 v160",
    String.join [
     "24tW4LsX1lW8fX1SyY3DwXTFbYiYNFZ1p1Qi1bZyeX9oY1tW14ZfXWYWX1bXfXWYWXZXfXXeXNjp16y1XkfRWW58b3",
     "Sw78b1v30c1v7SbWFOW7vcDp5Oy1gaW4LofaXEdWbW1kWdWrWYWfW7X1a"])]

/-- The rows up to the one of a name. -/
def upTo? (name : String) : List (String × String) → Option (List (String × String))
  | [] => none
  | row :: rest =>
    if (Table.words row.1).contains name then some [row]
    else (upTo? name rest).map (row :: ·)

/-- The ranges of the codes that have a meaning in a version, by one of the names of the version, in
lower case and without separators. -/
def ranges? (name : String) : Option (List (Nat × Nat)) :=
  (upTo? name rows).map fun rows => rows.flatMap fun row => Table.ranges row.2

end FlowSafety.Unicode.Age
