import Letterhead.Form.Fault
import Letterhead.Number.Read
import Letterhead.Picture.Fault

/-!
Failures: why a call gives no value. Every failure is a cause; its wording, where it has one, is in
`Failure.message`.
-/

namespace Letterhead

inductive Failure where
  | faulty (faults : List Fault)
  | formatDisabled (requested : Text) (available : List Text)
  | threadMissing (id : Text)
  | tooLarge (actual allowed : Binary64)
  | rendererUnavailable (reason : Text)
  | generation (reason : Text)
  | notWhole (numeral : Text)
  | notNumeric (numeral : Text)
  | noWholeForNan
  | unknownFormat (name : Text)
  | forbiddenCharacter
  | longProperty (value : Text)
  | unrecognizedPicture
  | picture (fault : Picture.Fault)
  | halfCharacter
  | tooDeep
  | unfinished
  | nulInPath
  | wrongType
  | notAnObject
  | overflow
  | divisionByZero
  | fileMissing
  | isFolder
  | notAFolder
  | nameTooLong
  | commitFailed
deriving DecidableEq, Repr

namespace Failure

def propertyLimit : Nat := 255

/-- The wording of a failure. Failures of the outside world, and those of a value that has the wrong
kind, have none. -/
def message : Failure → Option Text
  | formatDisabled requested available =>
    some ("Format '".toList ++ requested ++ "' is not enabled. Available formats: ".toList ++
      ", ".toList.intercalate available)
  | threadMissing id =>
    some ("Thread ".toList ++ id ++ " not found - cannot save generated document".toList)
  | tooLarge actual allowed =>
    some ("Generated document (".toList ++ actual.fixed 2 false ++
      " MB) exceeds maximum size limit (".toList ++ allowed.brief ++ " MB)".toList)
  | rendererUnavailable reason => some reason
  | generation reason => some reason
  | notWhole numeral =>
    some ("invalid literal for int() with base 10: ".toList ++ numeral.quoted.take 200)
  | notNumeric numeral => some ("could not convert string to float: ".toList ++ numeral.quoted)
  | noWholeForNan => some "cannot convert float NaN to integer".toList
  | unknownFormat name => some (Text.quoted name ++ " is not a valid DocumentFormat".toList)
  | forbiddenCharacter =>
    some ("All strings must be XML compatible: Unicode or ASCII, no NULL bytes or control " ++
      "characters").toList
  | longProperty value =>
    some ("exceeded ".toList ++ natText propertyLimit ++
      " char limit for property, got:\n\n'".toList ++ value ++ ['\''])
  | unrecognizedPicture => some []
  | picture fault => fault.message
  | nulInPath => some "embedded null byte".toList
  | _ => none

end Failure

def Numeral.whole (t : Text) : Except Failure Int :=
  match typedInt? t with
  | some n => .ok n
  | none => .error (.notWhole t)

def Numeral.real (t : Text) : Except Failure Binary64 :=
  match typedBinary64? t with
  | some x => .ok x
  | none => .error (.notNumeric t)

def Binary64.rounded (x : Binary64) : Except Failure Int :=
  match x.round? with
  | some n => .ok n
  | none => .error (if x = .nan then .noWholeForNan else .overflow)

def Binary64.truncated (x : Binary64) : Except Failure Int :=
  match x.truncate? with
  | some n => .ok n
  | none => .error (if x = .nan then .noWholeForNan else .overflow)

end Letterhead
