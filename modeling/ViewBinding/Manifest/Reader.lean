import ViewBinding.Manifest.Keyword
import ViewBinding.Manifest.Shape

namespace ViewBinding.Manifest

open Json (skipSpace readComma readColon readNumber readString startsNumber readWord)

variable {α σ : Type}

def readViewId (s : List Char) : Except Fault (ViewId × List Char) :=
  match skipSpace s with
  | [] => .error (.notJson .endInValue)
  | c :: r =>
      if startsNumber c then do
        let (v, r) ← ofJsonRead (readNumber (c :: r))
        match v with
        | .integer n =>
            if Int32.minValue.toInt ≤ n ∧ n ≤ Int32.maxValue.toInt then .ok (Int32.ofInt n, r)
            else .error (.wrongValue (.integer n) "i32")
        | .real x => .error (.wrongType (.real x) "i32")
      else mismatch "i32" (c :: r)

def readOptional (read : List Char → Except Fault (α × List Char)) (s : List Char) :
    Except Fault (Option α × List Char) :=
  match skipSpace s with
  | 'n' :: r => do
      let r ← ofJsonRead (readWord ['u', 'l', 'l'] r)
      .ok (none, r)
  | t => do
      let (a, r) ← read t
      .ok (some a, r)

def readElements (read : List Char → Except Fault (α × List Char)) :
    Nat → List Char → Except Fault (List α × List Char)
  | 0, _ => .error (.notJson .endInList)
  | n + 1, s => do
      let (a, r) ← read s
      let (next, r) ← ofJsonRead (readComma ']' .endInList .expectedListEnd r)
      match next with
      | none => .ok ([a], r)
      | some _ => do
          let (as, r) ← readElements read n r
          .ok (a :: as, r)

def readList (read : List Char → Except Fault (α × List Char)) (s : List Char) :
    Except Fault (List α × List Char) :=
  match skipSpace s with
  | [] => .error (.notJson .endInValue)
  | '[' :: r =>
      match skipSpace r with
      | [] => .error (.notJson .endInList)
      | ']' :: t => .ok ([], t)
      | t => readElements read (t.length + 1) t
  | t => mismatch "a sequence" t

/-- The members of an object that is not empty, in a text of at most `n` characters. Each is given
to `readMember` with its key before the colon is looked for. -/
def readEntries (readMember : σ → String → List Char → Except Fault (σ × List Char)) :
    Nat → σ → List Char → Except Fault (σ × List Char)
  | 0, _, _ => .error (.notJson .endInObject)
  | n + 1, slots, s =>
      match s with
      | '"' :: r => do
          let (key, r) ← ofJsonRead (readString r)
          let (slots, r) ← readMember slots key r
          let (next, r) ← ofJsonRead (readComma '\x7d' .endInObject .expectedObjectEnd r)
          match next with
          | none => .ok (slots, r)
          | some _ => readEntries readMember n slots r
      | _ => .error (.notJson .keyNotString)

def readObject (readMember : σ → String → List Char → Except Fault (σ × List Char)) (slots : σ)
    (s : List Char) : Except Fault (σ × List Char) :=
  match skipSpace s with
  | [] => .error (.notJson .endInObject)
  | '\x7d' :: t => .ok (slots, t)
  | t => readEntries readMember (t.length + 1) slots t

/-- Where the values of a record written as a list go on: at the next value, or not at all when the
list has ended. -/
def nextPosition (first : Bool) (s : List Char) : Except Fault (Option (List Char) × List Char) :=
  match first, skipSpace s with
  | _, [] => .error (.notJson .endInList)
  | _, ']' :: t => .ok (none, ']' :: t)
  | true, t => .ok (some t, t)
  | false, ',' :: r =>
      match skipSpace r with
      | [] => .error (.notJson .endInValue)
      | ']' :: _ => .error (.notJson .trailingComma)
      | t => .ok (some t, t)
  | false, _ => .error (.notJson .expectedListEnd)

/-- The end of a record written as a list; surplus values are refused unread. -/
def readPositionsEnd (s : List Char) : Except Fault (List Char) :=
  match skipSpace s with
  | [] => .error (.notJson .endInList)
  | ']' :: t => .ok t
  | ',' :: r =>
      match skipSpace r with
      | ']' :: _ => .error (.notJson .trailingComma)
      | _ => .error (.notJson .trailingText)
  | _ => .error (.notJson .trailingText)

namespace Members

def complete : (members : Members) → members.Slots → Except Fault members.Carrier
  | .nil, () => .ok ()
  | .cons key required shape rest, (slot, slots) =>
      match slot <|> (if required then none else shape.absent?) with
      | some a => do
          let as ← rest.complete slots
          .ok (a, as)
      | none => .error (.missingMember key)

end Members

mutual

def Shape.read : (shape : Shape) → List Char → Except Fault (shape.Carrier × List Char)
  | .text => readText "a string"
  | .viewId => readViewId
  | .modifier => Keywords.modifiers.read
  | .kind => Keywords.kinds.read
  | .optional shape => readOptional shape.read
  | .list shape => readList shape.read
  | .record name members => fun s =>
      match skipSpace s with
      | [] => .error (.notJson .endInValue)
      | '[' :: r => do
          let (as, r) ← members.readPositions name members.length 0 r
          let r ← readPositionsEnd r
          .ok (as, r)
      | '\x7b' :: r => do
          let (slots, r) ← readObject (members.readMember members.keys) members.noSlots r
          let as ← members.complete slots
          .ok (as, r)
      | t => mismatch ("struct " ++ name) t

def Members.readMember (known : List String) : (members : Members) → members.Slots → String →
    List Char → Except Fault (members.Slots × List Char)
  | .nil, (), key, _ => .error (.unknownMember key known)
  | .cons own _ shape rest, (slot, slots), key, s =>
      if own = key then
        match slot with
        | some _ => .error (.repeatedMember key)
        | none => do
            let s ← ofJsonRead (readColon s)
            let (a, r) ← shape.read s
            .ok ((some a, slots), r)
      else do
        let (slots, r) ← rest.readMember known slots key s
        .ok ((slot, slots), r)

def Members.readPositions (record : String) (size : Nat) : (members : Members) → Nat → List Char →
    Except Fault (members.Carrier × List Char)
  | .nil, _, s => .ok ((), s)
  | .cons _ required shape rest, position, s => do
      let (value?, s) ← nextPosition (position = 0) s
      match value? with
      | some _ => do
          let (a, s) ← shape.read s
          let (as, s) ← rest.readPositions record size (position + 1) s
          .ok ((a, as), s)
      | none =>
          match if required then none else shape.default? with
          | some a => do
              let (as, s) ← rest.readPositions record size (position + 1) s
              .ok ((a, as), s)
          | none => .error (.wrongLength position record size)

end

def Shape.parse (shape : Shape) (s : List Char) : Except Fault shape.Carrier := do
  let (a, r) ← shape.read s
  match skipSpace r with
  | [] => .ok a
  | _ => .error (.notJson .trailingText)

end ViewBinding.Manifest
