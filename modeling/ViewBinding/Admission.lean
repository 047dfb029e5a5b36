import ViewBinding.Diagnostic.Queue
import ViewBinding.Options
import ViewBinding.Round

namespace ViewBinding

open Text

structure Member where
  name : String
  modifiers : Modifiers
  site : Site
  deriving DecidableEq, Repr

def FieldDecl.member (f : FieldDecl) (host : TypeDecl) : Member :=
  ⟨f.name, f.modifiers, f.site host.name⟩

def MethodDecl.member (m : MethodDecl) (host : TypeDecl) : Member :=
  ⟨m.name, m.modifiers, m.site host.name⟩

namespace Admission

variable (options : Options) (marker : Marker) (host : TypeDecl) (member : Member)

def described : TypeKind → String
  | .ordinary | .record => "a "
  | .interface | .enumeration | .annotationType => "an "

def qualified : String := s!"({host.name}.{member.name})"

def isForbidden : Modifier → Bool
  | .privateAccess | .static => true
  | _ => false

def forbidden : List Modifier := member.modifiers.toList.filter isForbidden

def hiddenMember : List Diagnostic :=
  match (forbidden member).map Modifier.keyword with
  | [] => []
  | words =>
      let declared := join " " words
      [words.foldl (fun d word => d.suggest s!"remove the `{word}` modifier")
        ((Diagnostic.error .hiddenMember
            s!"{marker} {marker.targets} must not be private or static. {qualified host member}").about
          member.site s!"declared `{declared}` here")]

def hiddenHost : List Diagnostic :=
  match host.privateScope with
  | none => []
  | some scope =>
      [(((Diagnostic.error .hiddenMember
          s!"{marker} {marker.targets} must not be inside a private class. {qualified host member}").about
            (.type scope) s!"`{scope.simple}` is declared `private`").besides
              member.site "annotated here").suggest
                s!"make `{scope.simple}` package-private or public"]

def notInClass : List Diagnostic :=
  if host.kind = .ordinary then []
  else
    [((Diagnostic.error .notInClass
        s!"{marker} {marker.targets} may only be contained in classes. {qualified host member}").about
          host.site s!"this is {described host.kind}{host.kind.noun}").besides
            member.site "annotated here"]

def reservedHost : List Diagnostic :=
  match options.reservedNamespace? host.name with
  | none => []
  | some reserved =>
      [((Diagnostic.error reserved.code
          s!"{marker}-annotated class incorrectly in {reserved.owner} package. ({host.name})").about
            member.site s!"`{host.name}` is under `{reserved.start}`").note
              "generated companions are placed in the host's package"]

/-- The companion stands beside its host and uses a host object, so it must be able to name the host and
to reach the member through the object. -/
def objections : List Diagnostic :=
  hiddenMember marker host member ++ hiddenHost marker host member ++ notInClass marker host member
    ++ reservedHost options marker host member

/-- Reports all objections; the member is admitted when there are none. -/
def check (q : Queue) : Except ErrorsReported Unit × Queue :=
  (objections options marker host member).foldl
    (fun (_, q) d => let (reported, q) := q.report d; (.error reported, q)) (.ok (), q)

end Admission

end ViewBinding
