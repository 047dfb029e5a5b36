import ViewBinding.Declaration
import ViewBinding.Json.Reader
import ViewBinding.Manifest.Fault

namespace ViewBinding.Manifest

open Json (skipSpace readString readWord readNumber readColon startsNumber)

/-- A keyword is written as a string, or as an object whose one key it is and whose value is null. -/
structure Keywords (α : Type) where
  all : List α
  word : α → String

namespace Keywords

def modifiers : Keywords Modifier := ⟨Modifier.all, Modifier.keyword⟩

def kinds : Keywords TypeKind := ⟨TypeKind.all, TypeKind.keyword⟩

variable {α : Type} (words : Keywords α)

def find (word : String) : Except Fault α :=
  match words.all.find? fun a => words.word a = word with
  | some a => .ok a
  | none => .error (.unknownWord word (words.all.map words.word))

end Keywords

/-- Tells the value at the start of a text that is not of the expected type. Inside lists and
objects nothing is read. -/
def mismatch {α : Type} (expected : String) (s : List Char) : Except Fault α :=
  let wrong (found : Found) : Except Fault α := .error (.wrongType found expected)
  match s with
  | [] => .error (.notJson .endInValue)
  | c :: r =>
      if c = 'n' then do
        let _ ← ofJsonRead (readWord ['u', 'l', 'l'] r)
        wrong .null
      else if c = 't' then do
        let _ ← ofJsonRead (readWord ['r', 'u', 'e'] r)
        wrong (.boolean true)
      else if c = 'f' then do
        let _ ← ofJsonRead (readWord ['a', 'l', 's', 'e'] r)
        wrong (.boolean false)
      else if c = '"' then do
        let (t, _) ← ofJsonRead (readString r)
        wrong (.string t)
      else if startsNumber c then do
        let (v, _) ← ofJsonRead (readNumber (c :: r))
        match v with
        | .integer n => wrong (.integer n)
        | .real x => wrong (.real x)
      else if c = '[' then wrong .list
      else if c = '\x7b' then wrong .object
      else .error (.notJson .expectedValue)

def readText (expected : String) (s : List Char) : Except Fault (String × List Char) :=
  match skipSpace s with
  | [] => .error (.notJson .endInValue)
  | '"' :: r => ofJsonRead (readString r)
  | t => mismatch expected t

def readKey (s : List Char) : Except Json.Fault (String × List Char) :=
  match skipSpace s with
  | [] => .error .endInObject
  | '"' :: r => readString r
  | '\x7d' :: _ => .error .expectedValue
  | _ => .error .keyNotString

def readNull (s : List Char) : Except Fault (List Char) :=
  match skipSpace s with
  | [] => .error (.notJson .endInValue)
  | 'n' :: r => ofJsonRead (readWord ['u', 'l', 'l'] r)
  | t => mismatch "unit" t

namespace Keywords

variable {α : Type} (words : Keywords α)

def read (s : List Char) : Except Fault (α × List Char) :=
  match skipSpace s with
  | [] => .error (.notJson .endInValue)
  | c :: r =>
      if c = '"' then do
        let (word, r) ← ofJsonRead (readString r)
        let a ← words.find word
        .ok (a, r)
      else if c = '\x7b' then do
        let (word, r) ← ofJsonRead (readKey r)
        let a ← words.find word
        let r ← ofJsonRead (readColon r)
        let r ← readNull r
        match skipSpace r with
        | [] => .error (.notJson .endInObject)
        | d :: r => if d = '\x7d' then .ok (a, r) else .error (.notJson .expectedValue)
      else .error (.notJson .expectedValue)

def ofJson : Json → Except Fault α
  | .string word => words.find word
  | .object [(word, v)] => do
      let a ← words.find word
      match v with
      | .null => .ok a
      | v => .error (.wrongType (.ofJson v) "unit")
  | .object _ => .error (.wrongValue .object "map with a single key")
  | v => .error (.wrongType (.ofJson v) "string or map")

end Keywords

end ViewBinding.Manifest
