import FlowSafety.Interval.Basic

/-!
# Integer types

The fixed-width types that text can be parsed into, and that an integer source can have.
-/

namespace FlowSafety

/-- A fixed-width integer type. -/
inductive IntType where
  | i8
  | i16
  | i32
  | i64
  | u8
  | u16
  | u32
deriving DecidableEq, Repr

namespace IntType

def all : List IntType := [.i8, .i16, .i32, .i64, .u8, .u16, .u32]

/-- Every value of the type. -/
def range : IntType → Interval
  | .i8 => .range (-128) 127
  | .i16 => .range (-32768) 32767
  | .i32 => .range (-2147483648) 2147483647
  | .i64 => .range Int64.minValue Int64.maxValue
  | .u8 => .range 0 255
  | .u16 => .range 0 65535
  | .u32 => .range 0 4294967295

/-- The name of the type in a persisted path. -/
def name : IntType → String
  | .i8 => "i8"
  | .i16 => "i16"
  | .i32 => "i32"
  | .i64 => "i64"
  | .u8 => "u8"
  | .u16 => "u16"
  | .u32 => "u32"

/-- The name of the type in the text of an operation. -/
def label : IntType → String
  | .i8 => "I8"
  | .i16 => "I16"
  | .i32 => "I32"
  | .i64 => "I64"
  | .u8 => "U8"
  | .u16 => "U16"
  | .u32 => "U32"

end IntType

end FlowSafety
