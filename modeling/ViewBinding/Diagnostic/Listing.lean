import ViewBinding.Diagnostic.Basic
import ViewBinding.Json.Value

namespace ViewBinding

def Label.toJson (l : Label) : Json :=
  .object [
    ("element", .string l.site.text),
    ("member", match l.site.member? with
      | some name => .string name
      | none => .null),
    ("message", .string l.message),
    ("owner", .string l.site.owner.canonical),
    ("primary", .boolean l.isPrimary)]

def Diagnostic.toJson (d : Diagnostic) : Json :=
  .object [
    ("code", .string d.code.text),
    ("labels", .array (d.labels.map Label.toJson)),
    ("message", .string d.message),
    ("notes", .array (d.notes.map .string)),
    ("severity", .string d.severity.text),
    ("suggestions", .array (d.suggestions.map .string))]

/-- A JSON array with one diagnostic a line, written as they come. -/
structure Listing where
  text : String
  isFirst : Bool

namespace Listing

def start : Listing := ⟨"[", true⟩

def add (l : Listing) (d : Diagnostic) : Listing :=
  ⟨l.text ++ (if l.isFirst then "" else ",") ++ "\n  " ++ d.toJson.text, false⟩

def addAll (l : Listing) (ds : List Diagnostic) : Listing := ds.foldl add l

def finish (l : Listing) : String := l.text ++ if l.isFirst then "]\n" else "\n]\n"

end Listing

end ViewBinding
