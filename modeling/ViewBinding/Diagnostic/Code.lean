namespace ViewBinding

/-- The first digit of a code tells the stage: admission of members (1), construction of bindings (2),
writing of sources (3). -/
inductive Code where
  | hiddenMember
  | notInClass
  | frameworkHost
  | coreHost
  | manyParameters
  | notView
  | writeFailure
  | alreadyWritten
  | noViewIds
  deriving DecidableEq, Repr

namespace Code

def all : List Code :=
  [.hiddenMember, .notInClass, .frameworkHost, .coreHost, .manyParameters, .notView, .writeFailure,
    .alreadyWritten, .noViewIds]

def text : Code → String
  | .hiddenMember => "E1001"
  | .notInClass => "E1002"
  | .frameworkHost => "E1003"
  | .coreHost => "E1004"
  | .manyParameters => "E2001"
  | .notView => "E2002"
  | .writeFailure => "E3001"
  | .alreadyWritten => "E3002"
  | .noViewIds => "W2001"

instance : ToString Code := ⟨text⟩

def summary : Code → String
  | .hiddenMember => "annotated member is private or static"
  | .notInClass => "annotated member is not contained in a class"
  | .frameworkHost => "annotated class is in the Android framework package"
  | .coreHost => "annotated class is in the Java core package"
  | .manyParameters => "click handler declares more than one parameter"
  | .notView => "click handler parameter is not a View"
  | .writeFailure => "failed to write generated source"
  | .alreadyWritten => "generated source already exists"
  | .noViewIds => "click handler lists no view ids"

def ofAdmission : Code → Bool
  | .hiddenMember | .notInClass | .frameworkHost | .coreHost => true
  | _ => false

def ofBinding : Code → Bool
  | .manyParameters | .notView => true
  | _ => false

def ofWriting : Code → Bool
  | .writeFailure | .alreadyWritten => true
  | _ => false

def isWarning : Code → Bool
  | .noViewIds => true
  | _ => false

def abortsRound (c : Code) : Bool := c.ofAdmission || c.ofBinding

/-- Reads a code in any case. The codes are made of ASCII characters alone, and no other character
has one of them as its capital. -/
def parse? (s : String) : Option Code :=
  all.find? fun c => c.text.toList = s.toList.map Char.toUpper

theorem parse?_text (c : Code) : parse? c.text = some c := by cases c <;> decide

end Code

end ViewBinding
