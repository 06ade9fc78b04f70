import FlowSafety.Unicode.Table

/-!
# Case

The case mappings of single characters, at version 17 of the standard. Most characters map to one
character; the few that map to several have a table of their own.
-/

namespace FlowSafety.Unicode.Case

/-! ## Tables -/

/-- The characters with another lower case, as gaps and signed distances. -/
def lowerText : String :=
  String.join [
  "2X2WW2WW2WW2WW2WW2WW2WW2WW2WW2WW2WW2WW2WW2WW2WW2WW2WW2WW2WW2WW2WW2WW2WW2WW2WW2W3b2WW2WW2WW",
  "2WW2WW2WW2WW2WW2WW2WW2WW2WW2WW2WW2WW2WW2WW2WW2WW2WW2WW2WW2WX2WW2WW2WW2WW2WW2WW2W1XYXYXYXYX",
  "YXYXYXYXYXYXYXYXYXYXYXYXYXYXYXYXYXYXYXYZYXYXYYYXYXYXYXYXYXYXYYYXYXYXYXYXYXYXYXYXYXYXYXYXYX",
  "YXYXYXYXYXYXYXYXYX7nWYXYXYZDaWYXYXCyWYXCwWCwWYY4-WCqWCsWYXCwWC-XDcWDYWYZDcWDgXDiWYXYXYXDqW",
  "YXDqYYXDqWYXDoWDoWYXYXDsWYZYdaWYXaWYXaWYXYXYXYXYXYXYXYXYYYXYXYXYXYXYXYXYXYYaWYXYX6XW3lWYXY",
  "XYXYXYXYXYXYXYXYXYXYXYXYXYXYXYXYXYXYX8ZXYXYXYXYXYXYXYXYXYdL2sWYXAbWL2mYYXCbW4gW4kWYXYXYXYX",
  "Y9XYXYZYe7ec2iX2gW2gW2gX4WX3-W3-X2WW2WW2WW2WW2WW2WW2WW2WW2WW2WW2WW2WW2WW2WW2WW2WW2WX2WW2WW",
  "2WW2WW2WW2WW2WW2WW2W1ZmeYXYXYXYXYXYXYXYXYXYXYXYb3tYYXjWYY8ZW8ZW8ZW5WW5WW5WW5WW5WW5WW5WW5WW",
  "5WW5WW5WW5WW5WW5WW5WW5WW2WW2WW2WW2WW2WW2WW2WW2WW2WW2WW2WW2WW2WW2WW2WW2WW2WW2WW2WW2WW2WW2WW",
  "2WW2WW2WW2WW2WW2WW2WW2WW2WW2W1mYXYXYXYXYXYXYXYXYXYXYXYXYXYXYXYXYfYXYXYXYXYXYXYXYXYXYXYXYXY",
  "XYXYXYXYXYXYXYXYXYXYXYXYXYXYX-WYXYXYXYXYXYXYYYXYXYXYXYXYXYXYXYXYXYXYXYXYXYXYXYXYXYXYXYXYXY",
  "XYXYXYXYXYXYXYXYXYXYXYXYXYXYXYXYXYXYXYXYXYXYXYXYXYY3WW3WW3WW3WW3WW3WW3WW3WW3WW3WW3WW3WW3WW",
  "3WW3WW3WW3WW3WW3WW3WW3WW3WW3WW3WW3WW3WW3WW3WW3WW3WW3WW3WW3WW3WW3WW3WW3WW3W2QfE6WWE6WWE6WWE",
  "6WWE6WWE6WWE6WWE6WWE6WWE6WWE6WWE6WWE6WWE6WWE6WWE6WWE6WWE6WWE6WWE6WWE6WWE6WWE6WWE6WWE6WWE6W",
  "WE6WWE6WWE6WWE6WWE6WWE6WWE6WWE6WWE6WWE6WWE6WWE6WXE6WbE6WMo2BTWW2BTWW2BTWW2BTWW2BTWW2BTWW2B",
  "TWW2BTWW2BTWW2BTWW2BTWW2BTWW2BTWW2BTWW2BTWW2BTWW2BTWW2BTWW2BTWW2BTWW2BTWW2BTWW2BTWW2BTWW2B",
  "TWW2BTWW2BTWW2BTWW2BTWW2BTWW2BTWW2BTWW2BTWW2BTWW2BTWW2BTWW2BTWW2BTWW2BTWW2BTWW2BTWW2BTWW2B",
  "TWW2BTWW2BTWW2BTWW2BTWW2BTWW2BTWW2BTWW2BTWW2BTWW2BTWW2BTWW2BTWW2BTWW2BTWW2BTWW2BTWW2BTWW2B",
  "TWW2BTWW2BTWW2BTWW2BTWW2BTWW2BTWW2BTWW2BTWW2BTWW2BTWW2BTWW2BTWW2BTWW2BTWW2BTWW2BTWW2BTWW2B",
  "TWW2BTWWmWmWmWmWmWm24pYc5R_W5R_W5R_W5R_W5R_W5R_W5R_W5R_W5R_W5R_W5R_W5R_W5R_W5R_W5R_W5R_W5R",
  "_W5R_W5R_W5R_W5R_W5R_W5R_W5R_W5R_W5R_W5R_W5R_W5R_W5R_W5R_W5R_W5R_W5R_W5R_W5R_W5R_W5R_W5R_W",
  "5R_W5R_W5R_W5R_Y5R_W5R_W5R_AWYXYXYXYXYXYXYXYXYXYXYXYXYXYXYXYXYXYXYXYXYXYXYXYXYXYXYXYXYXYXY",
  "XYXYXYXYXYXYXYXYXYXYXYXYXYXYXYXYXYXYXYXYXYXYXYXYXYXYXYXYXYXYXYXYXYXYXYXYXYXYXYXYXYXYXYXYfE",
  "RzXYXYXYXYXYXYXYXYXYXYXYXYXYXYXYXYXYXYXYXYXYXYXYXYXYXYXYXYXYXYXYXYXYXYXYXYXYXYXYXYXYXYXYXY",
  "XYXYXYXYflWlWlWlWlWlWlWlelWlWlWlWlWlglWlWlWlWlWlWlWlelWlWlWlWlWlWlWlelWlWlWlWlWlhlXlXlXlel",
  "WlWlWlWlWlWlWlulWlWlWlWlWlWlWlelWlWlWlWlWlWlWlelWlWlWlWlWlWlWlelWlW4pW4pWnh5hW5hW5hW5hWnhl",
  "WlW6dW6dilWlW6_W6_Wjh7_W7_W7xW7xWn9fELvZGBzWG4hc1u1j1WW1WW1WW1WW1WW1WW1WW1WW1WW1WW1WW1WW1W",
  "W1WW1WW1WpYPo1qW1qW1qW1qW1qW1qW1qW1qW1qW1qW1qW1qW1qW1qW1qW1qW1qW1qW1qW1qW1qW1qW1qW1qW1qW1q",
  "1Pm3WW3WW3WW3WW3WW3WW3WW3WW3WW3WW3WW3WW3WW3WW3WW3WW3WW3WW3WW3WW3WW3WW3WW3WW3WW3WW3WW3WW3WW",
  "3WW3WW3WW3WW3WW3WW3WW3WW3WW3WW3WW3WW3WW3WW3WW3WW3WW3WW3W1mYXKVjW7EhWKUjYYXYXYXL1tWKVvWL1zW",
  "L1xXYYYeL3zWL3zWYXYXYXYXYXYXYXYXYXYXYXYXYXYXYXYXYXYXYXYXYXYXYXYXYXYXYXYXYXYXYXYXYXYXYXYXYX",
  "YXYXYXYXYXYXYXYXYXYXYXYXYeYXYaYUAjYXYXYXYXYXYXYXYXYXYXYXYXYXYXYXYXYXYXYXYXYXYXYpYXYXYXYXYX",
  "YXYXYXYXYXYXYXYXY4dYXYXYXYXYXYXYZYXYXYXYXYXYXYXYXYXYXYXYXYXYXYXYXYXYXYXYXYXYXYXYXYXYXYXYXY",
  "XYXYgYXYX250dWYXYXYXYXYaYX2IIlYYXYZYXYXYXYXYXYXYXYXYXYX2IKdW2IKzW2IKrW2IKXW2IKdX2IHZW2IIpW",
  "2IHfW1QWWYXYXYXYXYXYXYXYX2_W2IKbW253lWYXYX2IMjWYXYXYXYXYXYXYXYX2J4XuYLPh2WW2WW2WW2WW2WW2WW",
  "2WW2WW2WW2WW2WW2WW2WW2WW2WW2WW2WW2WW2WW2WW2WW2WW2WW2WW2WW2W16b2mW2mW2mW2mW2mW2mW2mW2mW2mW2",
  "mW2mW2mW2mW2mW2mW2mW2mW2mW2mW2mW2mW2mW2mW2mW2mW2mW2mW2mW2mW2mW2mW2mW2mW2mW2mW2mW2mW2mW2mW2",
  "m4e2mW2mW2mW2mW2mW2mW2mW2mW2mW2mW2mW2mW2mW2mW2mW2mW2mW2mW2mW2mW2mW2mW2mW2mW2mW2mW2mW2mW2mW",
  "2mW2mW2mW2mW2mW2mW2m4y2kW2kW2kW2kW2kW2kW2kW2kW2kW2kW2kX2kW2kW2kW2kW2kW2kW2kW2kW2kW2kW2kW2k",
  "W2kW2kW2kX2kW2kW2kW2kW2kW2kW2kX2kW2k1Ng4WW4WW4WW4WW4WW4WW4WW4WW4WW4WW4WW4WW4WW4WW4WW4WW4WW",
  "4WW4WW4WW4WW4WW4WW4WW4WW4WW4WW4WW4WW4WW4WW4WW4WW4WW4WW4WW4WW4WW4WW4WW4WW4WW4WW4WW4WW4WW4WW",
  "4WW4WW4WW4W4z2WW2WW2WW2WW2WW2WW2WW2WW2WW2WW2WW2WW2WW2WW2WW2WW2WW2WW2WW2WW2WW2W2Pw2WW2WW2WW",
  "2WW2WW2WW2WW2WW2WW2WW2WW2WW2WW2WW2WW2WW2WW2WW2WW2WW2WW2WW2WW2WW2WW2WW2WW2WW2WW2WW2WW2WLCW2",
  "WW2WW2WW2WW2WW2WW2WW2WW2WW2WW2WW2WW2WW2WW2WW2WW2WW2WW2WW2WW2WW2WW2WW2WW2WW2WW2WW2WW2WW2WW2",
  "WW2W2W1sW1sW1sW1sW1sW1sW1sW1sW1sW1sW1sW1sW1sW1sW1sW1sW1sW1sW1sW1sW1sW1sW1sW1sW1sUId2aW2aW2",
  "aW2aW2aW2aW2aW2aW2aW2aW2aW2aW2aW2aW2aW2aW2aW2aW2aW2aW2aW2aW2aW2aW2aW2aW2aW2aW2aW2aW2aW2aW2",
  "aW2a"]

/-- The characters whose lower case is several characters. -/
def lowerExpansionText : String :=
  "9mY3fOd"

/-- The characters with another upper case, as gaps and signed distances. -/
def upperText : String :=
  String.join [
  "3X1_W1_W1_W1_W1_W1_W1_W1_W1_W1_W1_W1_W1_W1_W1_W1_W1_W1_W1_W1_W1_W1_W1_W1_W1_W1_1w1Ek1g1_W1",
  "_W1_W1_W1_W1_W1_W1_W1_W1_W1_W1_W1_W1_W1_W1_W1_W1_W1_W1_W1_W1_W1_X1_W1_W1_W1_W1_W1_W1_W7oXX",
  "XXXXXXXXXXXXXXXXXXXXXXXXXXXXXXXXXXXXXXXXXXXXXXXElXXXXXXYXXXXXXXXXXXXXXXYXXXXXXXXXXXXXXXXXX",
  "XXXXXXXXXXXXXXXXXXXXXXXXXXXYXXXXXWItWCcYXXXYXZXbXY6YZXWAcW2J4YY8aYXXXXXYXaXYXZXXXYXZXX3mbX",
  "WZXXWZXXWZXXXXXXXXXXXXXXXXW4zXXXXXXXXXXXXXXXXXXYXWZXXZXXXXXXXXXXXXXXXXXXXXXXXXXXXXXXXXXXXX",
  "XXXZXXXXXXXXXXXXXXXXXeXYL3-WL3-XXaXXXXXXXXXWL1-WL1uWL1yWDZWCxXCvWCvXCpXCrW2IK-ZCvW2IKsXCzW",
  "2IMkW2IImW2IKeXDXWDbW2IKeWKVkW2IKYYDbXKVwWDfYDhdKUkYDpX2IKcWDpZ2IIqWDpW4fWDnWDnW4jbDrg2IHg",
  "W2IHa5c5e1hXXXZXZ8aW8aW8a1k2hW2fW2fW2fX1_W1_W1_W1_W1_W1_W1_W1_W1_W1_W1_W1_W1_W1_W1_W1_W1_W",
  "1zW1_W1_W1_W1_W1_W1_W1_W1_W1_W3_W3zW3zX3xW3nZ2zW3hWlXXXXXXXXXXXXXXXXXXXXXXXXW5hW4_WkW7dX5_",
  "YXYX1q1_W1_W1_W1_W1_W1_W1_W1_W1_W1_W1_W1_W1_W1_W1_W1_W1_W1_W1_W1_W1_W1_W1_W1_W1_W1_W1_W1_W",
  "1_W1_W1_W1_W4_W4_W4_W4_W4_W4_W4_W4_W4_W4_W4_W4_W4_W4_W4_W4_XXXXXXXXXXXXXXXXXXXXXXXXXXXXXXX",
  "XXXfXXXXXXXXXXXXXXXXXXXXXXXXXXXXXXXXXXXXXXXXXXXXXXXXXXXXXYXXXXXXXXXXXXXWzXXXXXXXXXXXXXXXXX",
  "XXXXXXXXXXXXXXXXXXXXXXXXXXXXXXXXXXXXXXXXXXXXXXXXXXXXXXXXXXXXXXXXXXXXXXXXXXXXXXX1n2_W2_W2_W",
  "2_W2_W2_W2_W2_W2_W2_W2_W2_W2_W2_W2_W2_W2_W2_W2_W2_W2_W2_W2_W2_W2_W2_W2_W2_W2_W2_W2_W2_W2_W",
  "2_W2_W2_W2_W2_2Qf5SWW5SWW5SWW5SWW5SWW5SWW5SWW5SWW5SWW5SWW5SWW5SWW5SWW5SWW5SWW5SWW5SWW5SWW5",
  "SWW5SWW5SWW5SWW5SWW5SWW5SWW5SWW5SWW5SWW5SWW5SWW5SWW5SWW5SWW5SWW5SWW5SWW5SWW5SWW5SWW5SWW5SW",
  "W5SWW5SWY5SWW5SWW5SWNulWlWlWlWlWl24YC6xWC6vWC6dWC6ZWC6ZWC6bWC5tWC2fW24SaXX7k250eZ7Eim253m3",
  "oXXXXXXXXXXXXXXXXXXXXXXXXXXXXXXXXXXXXXXXXXXXXXXXXXXXXXXXXXXXXXXXXXXXXXXXXXXXXXXXXXXXXXXXXX",
  "XXXXXXXXXXXXXXXXXXXXXXXXXXXXXXXXXXXXXXXXXXXXXXXXXXXXXXXXXXXXb3rbXXXXXXXXXXXXXXXXXXXXXXXXXX",
  "XXXXXXXXXXXXXXXXXXXXXXXXXXXXXXXXXXXXXXXXXXXXXXXXXXXXXXXXXXXXXXXXXXXXXWmWmWmWmWmWmWmWmemWmW",
  "mWmWmWmgmWmWmWmWmWmWmWmemWmWmWmWmWmWmWmemWmWmWmWmWmhmXmXmXmemWmWmWmWmWmWmWme4qW4qW5iW5iW5i",
  "W5iW6eW6eW8WW8WW7WW7WW7yW7y1omWmiE2fnmWmkmWmZkBe1t1X_W_W_W_W_W_W_W_W_W_W_W_W_W_W_W_aXQh1pW",
  "1pW1pW1pW1pW1pW1pW1pW1pW1pW1pW1pW1pW1pW1pW1pW1pW1pW1pW1pW1pW1pW1pW1pW1pW1p1Qc2_W2_W2_W2_W2",
  "_W2_W2_W2_W2_W2_W2_W2_W2_W2_W2_W2_W2_W2_W2_W2_W2_W2_W2_W2_W2_W2_W2_W2_W2_W2_W2_W2_W2_W2_W2",
  "_W2_W2_W2_W2_W2_W2_W2_W2_W2_W2_W2_W2_W2_XXZL2rWL2lXXXXXXcXYXgXXXXXXXXXXXXXXXXXXXXXXXXXXXXX",
  "XXXXXXXXXXXXXXXXXXXXXXXXXXXXXXXXXXXXXXXXXXXXXXXXXXXXXXXXXXXXXXXXXXXXXXeXXXaXiE5_WE5_WE5_WE",
  "5_WE5_WE5_WE5_WE5_WE5_WE5_WE5_WE5_WE5_WE5_WE5_WE5_WE5_WE5_WE5_WE5_WE5_WE5_WE5_WE5_WE5_WE5_",
  "WE5_WE5_WE5_WE5_WE5_WE5_WE5_WE5_WE5_WE5_WE5_WE5_XE5_bE5_U8pXXXXXXXXXXXXXXXXXXXXXXXXXXXXXXX",
  "XXXXXXXXXXXXXXpXXXXXXXXXXXXXXXXXXXXXXXXXXX4dXXXXXXXXXXXXXZXXXXXXXXXXXXXXXXXXXXXXXXXXXXXXXX",
  "XXXXXXXXXXXXXXXXXXXXXXXXXXXXXgXXXYXXXXXXXXXaXaXXXW3WYXXXXXXXXXXXXXXXXXXXhXXXXXXXXXXXXXXXaX",
  "XXYXXXXXXXXXXXXXXXwXQy1P_y2BS_W2BS_W2BS_W2BS_W2BS_W2BS_W2BS_W2BS_W2BS_W2BS_W2BS_W2BS_W2BS_",
  "W2BS_W2BS_W2BS_W2BS_W2BS_W2BS_W2BS_W2BS_W2BS_W2BS_W2BS_W2BS_W2BS_W2BS_W2BS_W2BS_W2BS_W2BS_",
  "W2BS_W2BS_W2BS_W2BS_W2BS_W2BS_W2BS_W2BS_W2BS_W2BS_W2BS_W2BS_W2BS_W2BS_W2BS_W2BS_W2BS_W2BS_",
  "W2BS_W2BS_W2BS_W2BS_W2BS_W2BS_W2BS_W2BS_W2BS_W2BS_W2BS_W2BS_W2BS_W2BS_W2BS_W2BS_W2BS_W2BS_",
  "W2BS_W2BS_W2BS_W2BS_W2BS_W2BS_W2BS_W2BS_W2BS_W2BS_W2BS_W2BS_W2BS_KSX1_W1_W1_W1_W1_W1_W1_W1",
  "_W1_W1_W1_W1_W1_W1_W1_W1_W1_W1_W1_W1_W1_W1_W1_W1_W1_W1_16j2lW2lW2lW2lW2lW2lW2lW2lW2lW2lW2l",
  "W2lW2lW2lW2lW2lW2lW2lW2lW2lW2lW2lW2lW2lW2lW2lW2lW2lW2lW2lW2lW2lW2lW2lW2lW2lW2lW2lW2lW2l4e2",
  "lW2lW2lW2lW2lW2lW2lW2lW2lW2lW2lW2lW2lW2lW2lW2lW2lW2lW2lW2lW2lW2lW2lW2lW2lW2lW2lW2lW2lW2lW2",
  "lW2lW2lW2lW2lW2l4x2jW2jW2jW2jW2jW2jW2jW2jW2jW2jW2jX2jW2jW2jW2jW2jW2jW2jW2jW2jW2jW2jW2jW2jW",
  "2jW2jX2jW2jW2jW2jW2jW2jW2jX2jW2j1OZ3_W3_W3_W3_W3_W3_W3_W3_W3_W3_W3_W3_W3_W3_W3_W3_W3_W3_W3",
  "_W3_W3_W3_W3_W3_W3_W3_W3_W3_W3_W3_W3_W3_W3_W3_W3_W3_W3_W3_W3_W3_W3_W3_W3_W3_W3_W3_W3_W3_W3",
  "_W3_W3_3z1_W1_W1_W1_W1_W1_W1_W1_W1_W1_W1_W1_W1_W1_W1_W1_W1_W1_W1_W1_W1_W1_2Pw1_W1_W1_W1_W1",
  "_W1_W1_W1_W1_W1_W1_W1_W1_W1_W1_W1_W1_W1_W1_W1_W1_W1_W1_W1_W1_W1_W1_W1_W1_W1_W1_W1_LCW1_W1_",
  "W1_W1_W1_W1_W1_W1_W1_W1_W1_W1_W1_W1_W1_W1_W1_W1_W1_W1_W1_W1_W1_W1_W1_W1_W1_W1_W1_W1_W1_W1_",
  "1x1rW1rW1rW1rW1rW1rW1rW1rW1rW1rW1rW1rW1rW1rW1rW1rW1rW1rW1rW1rW1rW1rW1rW1rW1rUIk2ZW2ZW2ZW2Z",
  "W2ZW2ZW2ZW2ZW2ZW2ZW2ZW2ZW2ZW2ZW2ZW2ZW2ZW2ZW2ZW2ZW2ZW2ZW2ZW2ZW2ZW2ZW2ZW2ZW2ZW2ZW2ZW2ZW2ZW2Z"]

/-- The characters whose upper case is several characters. -/
def upperExpansionText : String :=
  String.join [
  "6_Y2p2p3fYLy2k5cY2gOiC_ZSvOeOX_ZTbOeOXEsY19r1Ao68kY2ePnWY2qOeWY2tOgWY2vOgWY2XL-5rYTbOpXZTb",
  "OpOWXZTbOpOXXZTbOpQY1fY7OeSvWY7OfSvWY7OgSvWY7OhSvWY7OiSvWY7OjSvWY7OkSvWY7OlSvWY7OeSvWY7OfS",
  "vWY7OgSvWY7OhSvWY7OiSvWY7OjSvWY7OkSvWY7OlSvWY7PeSvWY7PfSvWY7PgSvWY7PhSvWY7PiSvWY7PjSvWY7Pk",
  "SvWY7PlSvWY7PeSvWY7PfSvWY7PgSvWY7PhSvWY7PiSvWY7PjSvWY7PkSvWY7PlSvWY7ReSvWY7RfSvWY7RgSvWY7R",
  "hSvWY7RiSvWY7RjSvWY7RkSvWY7RlSvWY7ReSvWY7RfSvWY7RgSvWY7RhSvWY7RiSvWY7RjSvWY7RkSvWY7RlSvYY7",
  "TwSvWYSnSvWYScSvXYSnQYWZSnQYSvaYSnSvbY7UgSvWYStSvWYSfSvXYStQYWZStQYSvaYStSvbZSvOeOWWZSvOeO",
  "XYYSvQYWZSvOeQYgZTbOeOWWZTbOeOXWYTXOpXYTbQYWZTbOeQYgY7VwSvWYTfSvWYSlSvXYTfQYWZTfQYSvaYTfSv",
  "1MOZY2c2cWY2c2fWY2c2iWZ2c2c2fWZ2c2c2iWY2p2qWY2p2qiY1Aa1AcWY1Aa19rWY1Aa19xWY1Ak1AcWY1Aa19z"]

/-! ## Decoding -/

/-- Gaps and signed distances as pairs of a code and the code it maps to. -/
def mappings (start : Nat) : List (Nat × Nat) → List (Nat × Nat)
  | [] => []
  | (gap, distance) :: rest =>
    let code := start + gap
    let target := if distance % 2 = 0 then code + distance / 2 else code - (distance + 1) / 2
    (code, target) :: mappings (code + 1) rest

/-- Gaps, lengths and codes as pairs of a code and the codes it maps to. -/
def expansions (start : Nat) : List Nat → List (Nat × List Nat)
  | gap :: length :: rest =>
    (start + gap, rest.take length) :: expansions (start + gap + 1) (rest.drop length)
  | _ => []
termination_by numbers => numbers.length
decreasing_by simp only [List.length_cons, List.length_drop]; omega

def lowerMappings : Array (Nat × Nat) :=
  (mappings 0 (Table.pairs (Table.numbers lowerText))).toArray

def lowerExpansions : List (Nat × List Nat) := expansions 0 (Table.numbers lowerExpansionText)

def upperMappings : Array (Nat × Nat) :=
  (mappings 0 (Table.pairs (Table.numbers upperText))).toArray

def upperExpansions : List (Nat × List Nat) := expansions 0 (Table.numbers upperExpansionText)

/-! ## Mapping -/

/-- The image of a character under a table of mappings and one of expansions. -/
def mapWith (table : Array (Nat × Nat)) (wide : List (Nat × List Nat)) (c : Char) : List Char :=
  match table.find? fun entry => entry.1 = c.toNat with
  | some entry => [Char.ofNat entry.2]
  | none =>
    match wide.find? fun entry => entry.1 = c.toNat with
    | some entry => entry.2.map Char.ofNat
    | none => [c]

/-- The lower case of a character that stands alone. -/
def lower (c : Char) : List Char :=
  if c.toNat < 128 then [c.toLower] else mapWith lowerMappings lowerExpansions c

/-- The upper case of a character. -/
def upper (c : Char) : List Char :=
  if c.toNat < 128 then [c.toUpper] else mapWith upperMappings upperExpansions c

end FlowSafety.Unicode.Case
