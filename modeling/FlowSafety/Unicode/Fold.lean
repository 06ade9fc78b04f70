import FlowSafety.Unicode.Table

/-!
# Characters that differ only in case

The sets of characters that a search without regard to case does not tell apart, at version 16 of
the standard.
-/

namespace FlowSafety.Unicode.Fold

/-- The sets, as the gap to the least character of the set before, the number of characters less
two, and the distances between the characters. -/
def orbitText : String :=
  String.join [
  "2XW1WWW1WWW1WWW1WWW1WWW1WWW1WWW1WWW1WWW1WWX1W85_WW1WWW1WWW1WWW1WWW1WWW1WWW1WWX1W8iWW1WWW1W",
  "WW1WWW1WWW1WWW1WWW1W2wXNd1WgW1WWW1WWW1WWW1WWW1WWX1W82cWW1WWW1WWW1WWW1WWW1WWW1WWW1WWW1WWW1W",
  "WW1WWW1WWW1WWW1WWW1WWW1WWW1WWW1WXW1WWW1WWW1WWW1WWW1WWW1WWW1WWW7D__W3vWWXXWXXWXXWXXWXXWXXWX",
  "XWXXWXXWXXWXXWXXWXXWXXWXXWXXWXXWXXWXXWXXWXXWXXWXXWXZWXXWXXWXYWXXWXXWXXWXXWXXWXXWXXWXYWXXWX",
  "XWXXWXXWXXWXXWXXWXXWXXWXXWXXWXXWXXWXXWXXWXXWXXWXXWXXWXXWXXWXXWXYWXXWXXWXYW6ZWW6oWWXXWXXW6k",
  "WWXXW6jWW6jWWXYW2lWW6gWW6hWWXXW6jWW6lWW3XWW6pWW6nWWXXW5ZWW19IXWW6pWW6rWW4YWW6sWWXXWXXWXXW6",
  "wWWXXW6wYWXXW6wWWXXW6vWW6vWWXXWXXW6xWWXZWXYW1uaXXXYXXXYXXXYWXXWXXWXXWXXWXXWXXWXXWXYWXXWXXW",
  "XXWXXWXXWXXWXXWXXWXYXXXYWXZWXXWXXWXXWXXWXXWXXWXXWXXWXXWXXWXXWXXWXXWXXWXXWXXWXXWXXWXXWXZWXX",
  "WXXWXXWXXWXXWXXWXXWXXWXdWAHhWWXYWAHeWWAH_WWAH_WWXYW2bWW2dWWXXWXXWXXWXXWXXWAG_WWAGyWWAG-fW1",
  "9AlaW19AhYW19BdWW199eWW19AaZW19AaWWAFtWW19AXaWAFzhWAFdaW19AZaW199grW198rWW198o5cY2q1W70b1g",
  "WXXWXZWXaW4YWW4YWW4YXW3qcW1cXW1bWW1bWW1bXW2WXW1_WW1_WW72ZWW1WWX1W-WW1WWW1WWX1W2WWW1WWW1WWY",
  "1Wv1ZXX1W1sWW1WXW1WWW1WWW1WWX1WsWX1W1mXX_XWW1WWW1WWX1WlWW1WWW1WWX1W7AzWW1WWW1WaW71p-WeeWXX",
  "WXXWXXWXXWXXWXXWXXWXXWXXWXXWXXWXZWdaWXYWXbW2mWW2mWW2mWW2mWW2mWW2mWW2mWW2mWW2mWW2mWW2mWW2mW",
  "W2mWW2mWW2mWW2mWW1WWW1WWX1W62kWW1WWX1W62jWW1WWW1WWW1WWW1WWW1WWW1WWW1WWW1WWW1WWX1W62aWW1WWW",
  "1WWX1W62YWY1W62YXWW1WWW1WWW1WWW1WWW1WWW1WWW1WWX1W61yWW1WWW1WWW1WWW1WWW1W1mWXXXX61aXWXXWXXW",
  "XXWXXWXXWXXWXXWXXWXXWXXWXXWXXWXXWXXWXfWXXWXXWXXWXXWXXWXXWXXWXXWXXWXXWXXWXXWXXWXXWXXWXXWXXW",
  "XXWXXWXXWXXWXXWXXWXXWXXWXXWXXWlWWXXWXXWXXWXXWXXWXXWXYWXXWXXWXXWXXWXXWXXWXXWXXWXXWXXWXXWXXW",
  "XXWXXWXXWXXWXXWXXWXXWXXWXXWXXWXXWXXWXXWXXWXXWXXWXXWXXWXXWXXWXXWXXWXXWXXWXXWXXWXXWXXWXXWXXW",
  "XXWXXWXXWXXWXXWXYW1mWW1mWW1mWW1mWW1mWW1mWW1mWW1mWW1mWW1mWW1mWW1mWW1mWW1mWW1mWW1mWW1mWW1mWW",
  "1mWW1mWW1mWW1mWW1mWW1mWW1mWW1mWW1mWW1mWW1mWW1mWW1mWW1mWW1mWW1mWW1mWW1mWW1mWW1m2QfW73WWW73W",
  "WW73WWW73WWW73WWW73WWW73WWW73WWW73WWW73WWW73WWW73WWW73WWW73WWW73WWW73WWW73WWW73WWW73WWW73W",
  "WW73WWW73WWW73WWW73WWW73WWW73WWW73WWW73WWW73WWW73WWW73WWW73WWW73WWW73WWW73WWW73WWW73WWW73W",
  "XW73WbW73WYW2UWWW2UWWW2UWWW2UWWW2UWWW2UWWW2UWWW2UWWW2UWWW2UWWW2UWWW2UWWW2UWWW2UWWW2UWWW2UW",
  "WW2UWWW2UWWW2UWWW2UWWW2UWWW2UWWW2UWWW2UWWW2UWWW2UWWW2UWWW2UWWW2UWWW2UWWW2UWWW2UWWW2UWWW2UW",
  "WW2UWWW2UWWW2UWWW2UWWW2UWWW2UWWW2UWWW2UWWW2UWYW2UWWW2UWWW2UWLWW15UmWW15UmWW15UmWW15UmWW15U",
  "mWW15UmWW15UmWW15UmWW15UmWW15UmWW15UmWW15UmWW15UmWW15UmWW15UmWW15UmWW15UmWW15UmWW15UmWW15U",
  "mWW15UmWW15UmWW15UmWW15UmWW15UmWW15UmWW15UmWW15UmWW15UmWW15UmWW15UmWW15UmWW15UmWW15UmWW15U",
  "mWW15UmWW15UmWW15UmWW15UmWW15UmWW15UmWW15UmWW15UmWW15UmWW15UmWW15UmWW15UmWW15UmWW15UmWW15U",
  "mWW15UmWW15UmWW15UmWW15UmWW15UmWW15UmWW15UmWW15UmWW15UmWW15UmWW15UmWW15UmWW15UmWW15UmWW15U",
  "mWW15UmWW15UmWW15UmWW15UmWW15UmWW15UmWW15UmWW15UmWW15UmWW15UmWW15UmWW15UmWW15UmWW15UmWW15U",
  "mWWeWWeWWeWWeWWeWWe24oX12EYXWWX7lW12GaZW3NcmW12Hu3nWXXWXXWXXWXXWXXWXXWXXWXXWXXWXXWXXWXXWXX",
  "WXXWXXWXXWXXWXXWXXWXXWXXWXXWXXWXXWXXWXXWXXWXXWXXWXXWXXWXXWXXWXXWXXWXXWXXWXXWXXWXXWXXWXXWXX",
  "WXXWXXWXXWXXWXXXX1wXWXXWXXWXXWXXWXXWXXWXXWXXWXXWXXWXXWXXWXXWXXWXXWXXWXXWXXWXXWXXWXXWXXWXXW",
  "XXWXXWXhWXXWXXWXXWXXWXXWXXWXXWXXWXXWXXWXXWXXWXXWXXWXXWXXWXXWXXWXXWXXWXXWXXWXXWXXWXXWXXWXXW",
  "XXWXXWXXWXXWXXWXXWXXWXXWXXWXXWXXWXXWXXWXXWXXWXXWXXWXXWXXWXXWXXWeWWeWWeWWeWWeWWeWWeWWeeWeWW",
  "eWWeWWeWWeWWegWeWWeWWeWWeWWeWWeWWeWWeeWeWWeWWeWWeWWeWWeWWeWWeeWeWWeWWeWWeWWeWWehWeXWeXWeXW",
  "eeWeWWeWWeWWeWWeWWeWWeWWeeW2gWW2gWW2sWW2sWW2sWW2sWW3aWW3aWW4WWW4WWW3mWW3mWW3-WW3-YWeWWeWWe",
  "WWeWWeWWeWWeWWeeWeWWeWWeWWeWWeWWeWWeWWeeWeWWeWWeWWeWWeWWeWWeWWeeWeWWeXWflWfiWeWWekWeWWeZWd",
  "jWf9-Wy1jWmWWmWWmWWmWWmWWmWWmWWmWWmWWmWWmWWmWWmWWmWWmWWmpWXPoWwWWwWWwWWwWWwWWwWWwWWwWWwWWw",
  "WWwWWwWWwWWwWWwWWwWWwWWwWWwWWwWWwWWwWWwWWwWWwWWw1PmW1mWW1mWW1mWW1mWW1mWW1mWW1mWW1mWW1mWW1m",
  "WW1mWW1mWW1mWW1mWW1mWW1mWW1mWW1mWW1mWW1mWW1mWW1mWW1mWW1mWW1mWW1mWW1mWW1mWW1mWW1mWW1mWW1mWW",
  "1mWW1mWW1mWW1mWW1mWW1mWW1mWW1mWW1mWW1mWW1mWW1mWW1mWW1mWW1mWW1m1mWXcWXXWXXWXcWXYWXgWXXWXXWX",
  "XWXXWXXWXXWXXWXXWXXWXXWXXWXXWXXWXXWXXWXXWXXWXXWXXWXXWXXWXXWXXWXXWXXWXXWXXWXXWXXWXXWXXWXXWX",
  "XWXXWXXWXXWXXWXXWXXWXXWXXWXXWXXWXXWXXWXXWXXWXXWXXWXeWXXWXaWXUAjWXXWXXWXXWXXWXZWXXWXXWXXWXX",
  "WXXWXXWXXWXXWXXWXXWXXWXXWXXWXXWXXWXXWXpWXXWXXWXXWXXWXXWXXWXXWXXWXXWXXWXXWXXWXXWX4dWXXWXXWX",
  "XWXXWXXWXXWXZWXXWXXWXXWXXWXXWXXWXXWXXWXXWXXWXXWXXWXXWXXWXXWXXWXXWXXWXXWXXWXXWXXWXXWXXWXXWX",
  "XWXXWXXWXXWXXWXgWXXWXYWXXWXXWXXWXXWXaWXaWXXWXXW1mXWXXWXXWXXWXXWXXWXXWXXWXXWXXWXgWTWWWXXWXX",
  "WXXWXXWXXWXXWXXWXaWXXWXYWXZWXbWXXWXXWXwWXKOlWX10xW1WWW1WWW1WWW1WWW1WWW1WWW1WWW1WWW1WWW1WWW",
  "1WWW1WWW1WWW1WWW1WWW1WWW1WWW1WWW1WWW1WWW1WWW1WWW1WWW1WWW1WWW1W16bW1eWW1eWW1eWW1eWW1eWW1eWW",
  "1eWW1eWW1eWW1eWW1eWW1eWW1eWW1eWW1eWW1eWW1eWW1eWW1eWW1eWW1eWW1eWW1eWW1eWW1eWW1eWW1eWW1eWW1e",
  "WW1eWW1eWW1eWW1eWW1eWW1eWW1eWW1eWW1eWW1eWW1e4eW1eWW1eWW1eWW1eWW1eWW1eWW1eWW1eWW1eWW1eWW1eW",
  "W1eWW1eWW1eWW1eWW1eWW1eWW1eWW1eWW1eWW1eWW1eWW1eWW1eWW1eWW1eWW1eWW1eWW1eWW1eWW1eWW1eWW1eWW1",
  "eWW1eWW1e4yW1dWW1dWW1dWW1dWW1dWW1dWW1dWW1dWW1dWW1dWW1dXW1dWW1dWW1dWW1dWW1dWW1dWW1dWW1dWW1d",
  "WW1dWW1dWW1dWW1dWW1dWW1dXW1dWW1dWW1dWW1dWW1dWW1dWW1dXW1dWW1d1NgW2WWW2WWW2WWW2WWW2WWW2WWW2W",
  "WW2WWW2WWW2WWW2WWW2WWW2WWW2WWW2WWW2WWW2WWW2WWW2WWW2WWW2WWW2WWW2WWW2WWW2WWW2WWW2WWW2WWW2WWW",
  "2WWW2WWW2WWW2WWW2WWW2WWW2WWW2WWW2WWW2WWW2WWW2WWW2WWW2WWW2WWW2WWW2WWW2WWW2WWW2WWW2WWW2W4zW1",
  "WWW1WWW1WWW1WWW1WWW1WWW1WWW1WWW1WWW1WWW1WWW1WWW1WWW1WWW1WWW1WWW1WWW1WWW1WWW1WWW1WWW1W2PwW1",
  "WWW1WWW1WWW1WWW1WWW1WWW1WWW1WWW1WWW1WWW1WWW1WWW1WWW1WWW1WWW1WWW1WWW1WWW1WWW1WWW1WWW1WWW1WW",
  "W1WWW1WWW1WWW1WWW1WWW1WWW1WWW1WWW1WLCWW1WWW1WWW1WWW1WWW1WWW1WWW1WWW1WWW1WWW1WWW1WWW1WWW1WW",
  "W1WWW1WWW1WWW1WWW1WWW1WWW1WWW1WWW1WWW1WWW1WWW1WWW1WWW1WWW1WWW1WWW1WWW1WWW1WULWW1YWW1YWW1YW",
  "W1YWW1YWW1YWW1YWW1YWW1YWW1YWW1YWW1YWW1YWW1YWW1YWW1YWW1YWW1YWW1YWW1YWW1YWW1YWW1YWW1YWW1YWW1",
  "YWW1YWW1YWW1YWW1YWW1YWW1YWW1YWW1Y"]

/-- The codes that follow a code at the given distances. -/
def following (code : Nat) : List Nat → List Nat
  | [] => []
  | distance :: rest => (code + distance) :: following (code + distance) rest

/-- The encoded sets of characters. -/
def orbitsFrom (start : Nat) : List Nat → List (List Nat)
  | gap :: more :: rest =>
    let least := start + gap
    (least :: following least (rest.take (more + 1))) ::
      orbitsFrom (least + 1) (rest.drop (more + 1))
  | _ => []
termination_by numbers => numbers.length
decreasing_by simp only [List.length_cons, List.length_drop]; omega

/-- The sets of characters that differ only in case, each with at least two members. -/
def orbits : List (List Nat) := orbitsFrom 0 (Table.numbers orbitText)

end FlowSafety.Unicode.Fold
