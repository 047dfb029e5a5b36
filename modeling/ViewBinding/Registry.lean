import ViewBinding.Java.SourceFile
import ViewBinding.Options

namespace ViewBinding

open Java

structure RegistryEntry where
  host : ClassName
  companion : ClassName
  deriving DecidableEq, Repr

namespace Registry

def typeVariable : TypeExpr := .variable "T"

def companionType (o : Options) : TypeExpr := .generic o.companionInterface [typeVariable]

def hostType : TypeExpr := .generic (.ofTopLevel "java.lang" "Class") [typeVariable]

def addEntry (o : Options) (code : CodeBlock) (e : RegistryEntry) : CodeBlock :=
  code
    |>.opening (((Snippet.ofText "if (hostType == ").cls e.host).text ".class)")
    |>.statement (((((Snippet.ofText "return (").type (companionType o)).text ") new ").cls
      e.companion).text "()")
    |>.closing ""

def body (o : Options) (entries : List RegistryEntry) : CodeBlock :=
  (entries.foldl (addEntry o) .empty).statement "return null"

def find (o : Options) (entries : List RegistryEntry) : Method where
  name := "find"
  annotations := [.suppressWarnings "unchecked"]
  modifiers := .ofList [.publicAccess, .static]
  typeVariables := ["T"]
  returns := companionType o
  parameters := [⟨∅, hostType, "hostType"⟩]
  body := body o entries

def hiddenConstructor : Method where
  name := ""
  modifiers := .ofList [.privateAccess]

def file (o : Options) (name : ClassName) (entries : List RegistryEntry) : SourceFile :=
  generated name {
    name := name.simple
    modifiers := .ofList [.publicAccess, .final]
    interfaces := []
    methods := [hiddenConstructor, find o entries] }

end Registry

end ViewBinding
