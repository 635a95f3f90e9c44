/-
  Faults of a YAML text.

  A text that does not follow the format is malformed, and nothing more is said
  of it.  A scalar that follows the format may still not be a value of its type;
  such faults keep what was wrong.  The text itself may be encoded wrongly or be
  nested too deeply.

  * `Error.message`: the texts of the faults that have one.
-/
import AnnotationOrder.Document.Calendar
import AnnotationOrder.Number.Reading
import AnnotationOrder.Text.Quoted
import AnnotationOrder.Text.Utf8

namespace AnnotationOrder.Yaml

open Document Number Text

/-- Why a scalar is not a value of its type. -/
inductive ScalarError
  /-- An escape names a code point beyond the last one. -/
  | codePoint
  /-- An escape names a number too large for any code point. -/
  | codePointSize
  /-- An escape names half of a pair of code units.  It stands for no character, so a text with it
      is not represented here. -/
  | codeUnit
  | integer (base : Nat) (text : String) (e : IntegerError)
  | decimal (text : String)
  /-- A number in base sixty with too many parts. -/
  | sixtyRange
  | calendar (e : CalendarError)
  /-- A number without a character after its sign. -/
  | emptyNumber
  | truthValue
  | timestamp
  /-- A mapping where a timestamp is asked for. -/
  | timestampMapping
  deriving DecidableEq, Repr

/-- How much of a quoted text is shown when it is no integer. -/
def shownWidth : Nat := 200

/-- The text of a scalar error. -/
def ScalarError.message : ScalarError → Option String
  | codePoint => some "chr() arg not in range(0x110000)"
  | integer base text .notNumeral =>
    some ("invalid literal for int() with base " ++ toString base ++ ": "
      ++ String.ofList ((quoted text).toList.take shownWidth))
  | integer _ _ (.tooLong digits) =>
    some ("Exceeds the limit (" ++ toString digitLimit
      ++ " digits) for integer string conversion: value has " ++ toString digits
      ++ " digits; use sys.set_int_max_str_digits() to increase the limit")
  | decimal text => some ("could not convert string to float: " ++ quoted text)
  | calendar e => some e.message
  | codePointSize | codeUnit | sixtyRange | emptyNumber | truthValue | timestamp
  | timestampMapping => none

/-- Why a text holds no document. -/
inductive Error
  | malformed
  | scalar (e : ScalarError)
  | decode (e : Utf8.DecodeError)
  /-- The nodes are nested too deeply. -/
  | tooDeep
  deriving DecidableEq, Repr

/-- The text of an error. -/
def Error.message : Error → Option String
  | scalar e => e.message
  | decode e => some e.message
  | malformed | tooDeep => none

end AnnotationOrder.Yaml
