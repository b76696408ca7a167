import Reckoner.Datum
import Reckoner.EvaluationError
import Reckoner.Csv.Error
import Reckoner.Disk.Error
import Reckoner.Text.Blank
/-!
# Everything that can go wrong

An expression without a value, a value of the wrong kind, a missing file: each cause with its category
and its wording.
-/

namespace Reckoner

/-- What has to hold of the settings. -/
inductive Requirement where
  | knownMode
  | historyOfFifty
  | positiveCache
  | namedColumn
  deriving DecidableEq

def Requirement.message : Requirement → String
  | knownMode => "角度模式只能是 radian/degree"
  | historyOfFifty => "历史记录上限为50条"
  | positiveCache => "缓存大小必须为正数"
  | namedColumn => "表达式列名不能为空"

inductive Fault where
  | evaluation (e : EvaluationError)
  | unknownMode (given : Datum)
  | unknownErrorKind (given : Datum)
  | unknownMemoryKey (given : Datum)
  | noSuchToken (name : String)
  | historyTooSmall (size : Datum)
  | notANumeral (text : String)
  | notAnInteger (text : String)
  | integerTooLong (digits : Nat)
  | missingColumn (column file : String)
  | notText (given : Datum)
  | notConvertible (given : Datum)
  | notReal (given : Datum)
  | incomparable (relation leftKind rightKind : String)
  | unhashable (given : Datum)
  | notSliceable (given : Datum)
  | keyNotSliceable
  | notAnIndex (given : Datum)
  | integerTooLarge
  | noHistoryEntry (position : Datum)
  | noSecondWord
  /-- The cache had to shrink below nothing. -/
  | emptyCache
  | requirement (r : Requirement)
  | disk (e : Disk.Error) (path : String)
  | noSuchFolder (folder : String)
  | undecodable
  | csv (e : Csv.Error)

namespace Fault

inductive Category where
  | evaluation (kind : ErrorKind)
  | value
  | type
  | overflow
  | index
  | key
  | assertion
  | missingFile
  | notFolder
  | isFolder
  | system
  | encoding
  | csvSyntax
  | csvEmpty

def category : Fault → Category
  | evaluation e => .evaluation e.kind
  | unknownMode _ | unknownErrorKind _ | unknownMemoryKey _ | historyTooSmall _ | notANumeral _
  | notAnInteger _ | integerTooLong _ | missingColumn _ _ => .value
  | notText _ | notConvertible _ | notReal _ | incomparable _ _ _ | unhashable _ | notSliceable _
  | keyNotSliceable | notAnIndex _ => .type
  | integerTooLarge => .overflow
  | noHistoryEntry _ | noSecondWord => .index
  | noSuchToken _ | emptyCache => .key
  | requirement _ => .assertion
  | disk .missing _ => .missingFile
  | disk .notFolder _ => .notFolder
  | disk .isFolder _ => .isFolder
  | disk .nameTooLong _ | noSuchFolder _ => .system
  | disk .nullCharacter _ => .value
  | undecodable => .encoding
  | csv .noColumns => .csvEmpty
  | csv _ => .csvSyntax

def message : Fault → String
  | evaluation e => e.message
  | unknownMode given => "Unknown angle mode: " ++ given.shown
  | unknownErrorKind given => given.shown ++ " is not a valid ErrorKind"
  | unknownMemoryKey given => "Unknown memory key: " ++ given.plain
  | noSuchToken name => Text.quoted name
  | historyTooSmall size => "History size must be positive, got " ++ size.plain
  | notANumeral text => "could not convert string to float: " ++ Text.quoted text
  | notAnInteger text =>
    "invalid literal for int() with base 10: " ++ Text.take (Text.quoted text) 200
  | integerTooLong digits =>
    "Exceeds the limit (4300 digits) for integer string conversion: value has " ++ toString digits ++
      " digits; use sys.set_int_max_str_digits() to increase the limit"
  | missingColumn column file => "Expression column '" ++ column ++ "' not found in " ++ file ++ "."
  | notText given => "expected string or bytes-like object, got '" ++ given.kind ++ "'"
  | notConvertible given =>
    "float() argument must be a string or a real number, not '" ++ given.kind ++ "'"
  | notReal given => "must be real number, not " ++ given.kind
  | incomparable relation left right =>
    "'" ++ relation ++ "' not supported between instances of '" ++ left ++ "' and '" ++ right ++ "'"
  | unhashable given => "unhashable type: '" ++ given.kind ++ "'"
  | notSliceable given => "'" ++ given.kind ++ "' object is not subscriptable"
  | keyNotSliceable => "unhashable type: 'slice'"
  | notAnIndex given => "list indices must be integers or slices, not " ++ given.kind
  | integerTooLarge => "int too large to convert to float"
  | noHistoryEntry position => "No history entry at position " ++ position.plain
  | noSecondWord => "list index out of range"
  | emptyCache => "'dictionary is empty'"
  | requirement r => r.message
  | disk e path => e.message path
  | noSuchFolder folder =>
    "Cannot save file into a non-existent directory: '" ++ folder ++ "'"
  | undecodable => ""
  | csv e => e.message

end Fault

end Reckoner
