import Std.Data.HashSet
import ViewBinding.Binding
import ViewBinding.Java.SourceFile
import ViewBinding.Options

namespace ViewBinding

open Text Java

/-- The bindings of a host in the order in which they were added. `attached` holds the sites bound
so far, and each is bound once. -/
structure Companion where
  host : ClassName
  hostVisible : Bool
  fields : List FieldBinding
  methods : List MethodBinding
  attached : Std.HashSet Site

namespace Companion

def ofHost (host : TypeDecl) : Companion := ⟨host.name, host.visibleOutside, [], [], ∅⟩

def addField (c : Companion) (b : FieldBinding) : Bool × Companion :=
  if c.attached.contains b.site then (false, c)
  else (true, { c with fields := c.fields ++ [b], attached := c.attached.insert b.site })

def addMethod (c : Companion) (b : MethodBinding) : Bool × Companion :=
  if c.attached.contains b.site then (false, c)
  else (true, { c with methods := c.methods ++ [b], attached := c.attached.insert b.site })

def isEmpty (c : Companion) : Bool := c.fields.isEmpty && c.methods.isEmpty

def locals : List String := ["target", "root", "listener"]

/-- The name of the clicked view in a listener: the handler's own name for it, unless that would
hide a local. -/
def callbackName (b : MethodBinding) : String :=
  match b.parameter with
  | some name => if locals.contains name then "view" else name
  | none => "view"

def viewLookup (id : ViewId) : String := s!"(root.findViewById({id.toInt}))"

def assignment (b : FieldBinding) : Snippet :=
  ((Snippet.ofText s!"target.{b.name} = (").type (.declared b.type)).text s!"){viewLookup b.id}"

def call (b : MethodBinding) : String :=
  let argument := if b.parameter.isSome then callbackName b else ""
  s!"target.{b.name}({argument})"

def addListener (o : Options) (b : MethodBinding) (code : CodeBlock) : CodeBlock :=
  code
    |>.opening (((Snippet.ofText "listener = new ").cls o.listenerType).text "()")
    |>.line ((Snippet.ofText "@").cls (.ofTopLevel "java.lang" "Override"))
    |>.opening (((Snippet.ofText "public void onClick(").cls o.viewType).text s!" {callbackName b})")
    |>.statement (call b)
    |>.closing ""
    |>.closing ";"

def addHandler (o : Options) (code : CodeBlock) (b : MethodBinding) : CodeBlock :=
  b.ids.foldl (fun code id => code.statement s!"{viewLookup id}.setOnClickListener(listener)")
    (addListener o b code)

def body (o : Options) (c : Companion) : CodeBlock :=
  let code := c.fields.foldl (fun code b => code.statement (assignment b)) CodeBlock.empty
  if c.methods.isEmpty then code
  else
    c.methods.foldl (addHandler o)
      (code.statement ((Snippet.empty.cls o.listenerType).text " listener"))

def inject (o : Options) (c : Companion) : Method where
  name := "inject"
  annotations := [.override]
  modifiers := .ofList [.publicAccess]
  parameters := [⟨.ofList [.final], .ofClass c.host, "target"⟩, ⟨∅, .ofClass o.viewType, "root"⟩]
  body := c.body o

def file (o : Options) (c : Companion) : SourceFile :=
  let name := o.companionName c.host
  generated name {
    name := name.simple
    modifiers := .ofList [.publicAccess]
    interfaces := [.generic o.companionInterface [.ofClass c.host]]
    methods := [c.inject o] }

end Companion

end ViewBinding
