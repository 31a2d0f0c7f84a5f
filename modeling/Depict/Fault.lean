import Depict.Text.Utf8
import Depict.Value.Atom

/-!
# Faults

Everything that can go wrong, by its cause. A fault has a kind, which tells
handlers apart, and a message for the reader.
-/
namespace Depict
open Decimal Text

/-- The kinds of faults that a handler can tell apart. -/
inductive FaultKind
  | nullReference
  | configuration
  | value
  | type
  | attribute
  | key
  | index
  | runtime
  | system
  | arithmetic
  | overflow
  | frozen
  | decoding
  | recursion
  deriving DecidableEq

/-- A fault that a program raises of its own accord. -/
structure Raised where
  kind : FaultKind
  message : String
  deriving DecidableEq

/-- The message for the reader; a key is shown quoted. -/
def Raised.shown (r : Raised) : String :=
  if r.kind = .key then quote r.message else r.message

/-- A required value that is missing: what to tell, and the name it was required under, if any. -/
structure NullReference where
  message : String
  argument : Value
  deriving DecidableEq

namespace NullReference

/-- The report without a message of its own. -/
def unnamed : NullReference :=
  ⟨"Required value is None", .null⟩

/-- The report on an argument, whose name shows as the given text. -/
def ofArgument (shown : String) (argument : Value) : NullReference :=
  ⟨shown ++ " must not be None", argument⟩

/-- The report when both of two values are missing. -/
def bothMissing : NullReference :=
  ⟨"Both first and second are None", .null⟩

end NullReference

/-- What is wrong with a configuration; all texts are as they show. -/
inductive Misconfiguration
  | missing (name : String) (context : Option String)
  | invalid (name value : String) (reason : Option String)
  | unreadable (resource : String) (source : Option String)
  deriving DecidableEq

def Misconfiguration.message : Misconfiguration → String
  | missing name none => "Required environment variable " ++ name ++ " is not set"
  | missing name (some context) =>
    "Required environment variable " ++ name ++ " is not set: " ++ context
  | invalid name value none => "Invalid value for " ++ name ++ ": " ++ value
  | invalid name value (some reason) =>
    "Invalid value for " ++ name ++ ": " ++ value ++ ". " ++ reason
  | unreadable resource none => "Failed to load " ++ resource
  | unreadable resource (some source) => "Failed to load " ++ resource ++ " from " ++ source

/-- What a frozen record refuses. -/
inductive FrozenAccess
  | assign (field : String)
  | delete (field : String)
  deriving DecidableEq

/-- The causes of faults. -/
inductive Fault
  | missingValue (r : NullReference)
  | misconfigured (m : Misconfiguration)
  | raised (r : Raised)
  /-- A whole number with too many digits to write. -/
  | unwritable
  /-- A numeral with too many digits to read. -/
  | overlong (digits : Nat)
  /-- A text that spells no whole number, as it shows. -/
  | notWhole (shown : String)
  /-- A value of the named type that cannot become a number. -/
  | notNumber (typeName : String)
  /-- A text was asked for and a value of the named type came. -/
  | notText (typeName : String)
  /-- Something without text operations was taken for a text. -/
  | notTrimmable (holder : String)
  | undecodable (m : Utf8.Malformed)
  /-- A byte beyond ASCII at a place where only ASCII can be read. -/
  | notAscii (byte : UInt8) (position : Nat)
  | frozen (access : FrozenAccess)
  | emptyList
  | unhashable (typeName : String)
  /-- A span of time without a unit was to be a key; it is the same as spans of many lengths. -/
  | unitlessKey
  /-- A value that shows itself inside itself without end. -/
  | endless
  /-- A whole number that is too large for a binary number. -/
  | beyondBinary
  /-- A whole number that is too large for sixty-four bits. -/
  | beyondWord
  /-- A whole number that is too large for a span of time. -/
  | beyondSpan
  /-- Two units of time that no third one measures. -/
  | unitsApart (u v : TimeUnit)
  /-- Two units of time one of which holds too many of the other. -/
  | unitsTooFar (u v : TimeUnit)
  /-- A unit of time that holds too many of a finer one to be counted in it. -/
  | uncountable (u finer : TimeUnit)
  /-- An empty grid that was asked for one truth. -/
  | truthOfNone
  /-- A grid of several truths that was asked for one. -/
  | truthOfMany
  /-- Nested sequences that agree in their lengths only as far as the given ones. -/
  | ragged (lengths : List Nat)
  /-- Sequences that are nested too deeply for a grid. -/
  | tooDeep
  deriving DecidableEq

namespace Fault

def kind : Fault → FaultKind
  | missingValue _ => .nullReference
  | misconfigured _ => .configuration
  | raised r => r.kind
  | unwritable => .value
  | overlong _ => .value
  | notWhole _ => .value
  | notNumber _ => .type
  | notText _ => .type
  | notTrimmable _ => .attribute
  | undecodable _ => .decoding
  | notAscii _ _ => .decoding
  | frozen _ => .frozen
  | emptyList => .index
  | unhashable _ => .type
  | unitlessKey => .value
  | endless => .recursion
  | beyondBinary => .overflow
  | beyondWord => .overflow
  | beyondSpan => .overflow
  | unitsApart _ _ => .type
  | unitsTooFar _ _ => .overflow
  | uncountable _ _ => .overflow
  | truthOfNone => .value
  | truthOfMany => .value
  | ragged _ => .value
  | tooDeep => .value

/-- The name under which a missing value was required; other faults have none. -/
def argument : Fault → Value
  | missingValue r => r.argument
  | _ => .null

/-- Why bytes are no text, in words. -/
def flawText : Utf8.Flaw → String
  | .badStart => "invalid start byte"
  | .badContinuation => "invalid continuation byte"
  | .cutShort => "unexpected end of data"

/-- A byte and where it stands. -/
def byteText (b : UInt8) (position : Nat) : String :=
  "byte 0x" ++ String.ofList (hexDigits 2 b.toNat) ++ " in position " ++
    String.ofList (natDigits position)

/-- Where bytes are no text: the one byte, or the range of several. -/
def placeText (m : Utf8.Malformed) : String :=
  let number (n : Nat) : String := String.ofList (natDigits n)
  match m.bytes with
  | [b] => byteText b m.start
  | bs => "bytes in position " ++ number m.start ++ "-" ++ number (m.start + bs.length - 1)

/-- The rule that limits the digits of whole numbers. -/
def digitRule : String :=
  "Exceeds the limit (" ++ String.ofList (natDigits digitLimit) ++
    " digits) for integer string conversion"

/-- How the limit is lifted. -/
def digitAdvice : String :=
  "use sys.set_int_max_str_digits() to increase the limit"

/-- The most dimensions that a grid has. -/
def dimensionLimit : Nat :=
  64

/-- Lengths in parentheses; a single one has a comma behind it. -/
def lengthsText : List Nat → String
  | [n] => "(" ++ String.ofList (natDigits n) ++ ",)"
  | ns => "(" ++ ", ".intercalate (ns.map fun n => String.ofList (natDigits n)) ++ ")"

/-- Two units of time in brackets. -/
def unitsText (u v : TimeUnit) : String :=
  "[" ++ u.sign ++ "] and [" ++ v.sign ++ "]"

def message : Fault → String
  | missingValue r => r.message
  | misconfigured m => m.message
  | raised r => r.shown
  | unwritable => digitRule ++ "; " ++ digitAdvice
  | overlong n =>
    digitRule ++ ": value has " ++ String.ofList (natDigits n) ++ " digits; " ++ digitAdvice
  | notWhole shown => "invalid literal for int() with base 10: " ++ shown
  | notNumber t =>
    "int() argument must be a string, a bytes-like object or a real number, not '" ++ t ++ "'"
  | notText t => "__str__ returned non-string (type " ++ t ++ ")"
  | notTrimmable holder => holder ++ " has no attribute 'strip'"
  | undecodable m => "'utf-8' codec can't decode " ++ placeText m ++ ": " ++ flawText m.flaw
  | notAscii b n =>
    "'ascii' codec can't decode " ++ byteText b n ++ ": ordinal not in range(128)"
  | frozen (.assign field) => "cannot assign to field " ++ quote field
  | frozen (.delete field) => "cannot delete field " ++ quote field
  | emptyList => "pop from empty list"
  | unhashable t => "unhashable type: '" ++ t ++ "'"
  | unitlessKey => "Can't hash generic timedelta64"
  | endless => "maximum recursion depth exceeded"
  | beyondBinary => "int too large to convert to float"
  | beyondWord => "Python int too large to convert to C long"
  | beyondSpan => "int too big to convert"
  | unitsApart u v =>
    "Cannot get a common metadata divisor for Numpy datetime metadata " ++ unitsText u v ++
      " because they have incompatible nonlinear base time units."
  | unitsTooFar u v =>
    "Integer overflow getting a common metadata divisor for NumPy datetime metadata " ++
      unitsText u v ++ "."
  | uncountable u v =>
    "Integer overflow while computing the conversion factor between NumPy datetime units " ++
      u.sign ++ " and " ++ v.sign
  | truthOfNone =>
    "The truth value of an empty array is ambiguous. Use `array.size > 0` to check that an " ++
      "array is not empty."
  | truthOfMany =>
    "The truth value of an array with more than one element is ambiguous. Use a.any() or a.all()"
  | ragged lengths =>
    "setting an array element with a sequence. The requested array has an inhomogeneous shape " ++
      "after " ++ String.ofList (natDigits lengths.length) ++
      " dimensions. The detected shape was " ++ lengthsText lengths ++ " + inhomogeneous part."
  | tooDeep =>
    "setting an array element with a sequence. The requested array would exceed the maximum " ++
      "number of dimension of " ++ String.ofList (natDigits dimensionLimit) ++ "."

end Fault

end Depict
