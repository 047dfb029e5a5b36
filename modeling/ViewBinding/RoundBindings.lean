import Std.Data.HashMap
import ViewBinding.Companion

namespace ViewBinding

/-- The companions of one round, in the order in which their hosts were first met. -/
structure RoundBindings where
  companions : List Companion
  index : Std.HashMap ClassName Nat

namespace RoundBindings

def empty : RoundBindings := ⟨[], ∅⟩

/-- Makes sure that the host has a companion, and gives its position. -/
def touch (r : RoundBindings) (host : TypeDecl) : Nat × RoundBindings :=
  match r.index[host.name]? with
  | some i => (i, r)
  | none =>
      let i := r.companions.length
      (i, ⟨r.companions ++ [.ofHost host], r.index.insert host.name i⟩)

def get? (r : RoundBindings) (host : ClassName) : Option Companion :=
  r.index[host]?.bind fun i => r.companions[i]?

/-- Changes the companion of a host; the change tells whether it took effect. -/
def update (r : RoundBindings) (host : TypeDecl) (change : Companion → Bool × Companion) :
    Bool × RoundBindings :=
  let (i, r) := r.touch host
  match r.companions[i]? with
  | none => (false, r)
  | some c =>
      let (done, c) := change c
      (done, { r with companions := r.companions.set i c })

def addField (r : RoundBindings) (host : TypeDecl) (b : FieldBinding) : Bool × RoundBindings :=
  r.update host fun c => c.addField b

def addMethod (r : RoundBindings) (host : TypeDecl) (b : MethodBinding) : Bool × RoundBindings :=
  r.update host fun c => c.addMethod b

def size (r : RoundBindings) : Nat := r.companions.length

def hosts (r : RoundBindings) : List ClassName := r.companions.map Companion.host

end RoundBindings

end ViewBinding
