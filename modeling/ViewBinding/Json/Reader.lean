import ViewBinding.Json.Token

namespace ViewBinding.Json

def readComma (close : Char) (unfinished missing : Fault) (s : List Char) :
    Except Fault (Option (List Char) × List Char) :=
  match skipSpace s with
  | [] => .error unfinished
  | c :: r =>
      if c = close then .ok (none, r)
      else if c = ',' then
        match skipSpace r with
        | [] => .error .endInValue
        | d :: t => if d = close then .error .trailingComma else .ok (some (d :: t), d :: t)
      else .error missing

def readColon (s : List Char) : Except Fault (List Char) :=
  match skipSpace s with
  | [] => .error .endInObject
  | c :: r => if c = ':' then .ok r else .error .expectedColon

mutual

/-- A value; `n` is more than twice the length of the text. -/
def readValue : Nat → List Char → Except Fault (Json × List Char)
  | 0, _ => .error .endInValue
  | n + 1, s =>
      match skipSpace s with
      | [] => .error .endInValue
      | c :: r =>
          if c = 'n' then do
            let r ← readWord ['u', 'l', 'l'] r
            .ok (.null, r)
          else if c = 't' then do
            let r ← readWord ['r', 'u', 'e'] r
            .ok (.boolean true, r)
          else if c = 'f' then do
            let r ← readWord ['a', 'l', 's', 'e'] r
            .ok (.boolean false, r)
          else if c = '"' then do
            let (t, r) ← readString r
            .ok (.string t, r)
          else if startsNumber c then do
            let (v, r) ← readNumber (c :: r)
            match v with
            | .integer i => .ok (.integer i, r)
            | .real x => .ok (.real x, r)
          else if c = '[' then
            match skipSpace r with
            | [] => .error .endInList
            | d :: t =>
                if d = ']' then .ok (.array [], t)
                else do
                  let (vs, r) ← readElements n (d :: t)
                  .ok (.array vs, r)
          else if c = '\x7b' then
            match skipSpace r with
            | [] => .error .endInObject
            | d :: t =>
                if d = '\x7d' then .ok (.object [], t)
                else do
                  let (ms, r) ← readMembers n (d :: t)
                  .ok (.object ms, r)
          else .error .expectedValue

def readElements : Nat → List Char → Except Fault (List Json × List Char)
  | 0, _ => .error .endInList
  | n + 1, s => do
      let (v, r) ← readValue n s
      let (next, r) ← readComma ']' .endInList .expectedListEnd r
      match next with
      | none => .ok ([v], r)
      | some _ => do
          let (vs, r) ← readElements n r
          .ok (v :: vs, r)

def readMembers : Nat → List Char → Except Fault (List (String × Json) × List Char)
  | 0, _ => .error .endInObject
  | n + 1, s =>
      match s with
      | '"' :: r => do
          let (key, r) ← readString r
          let r ← readColon r
          let (v, r) ← readValue n r
          let (next, r) ← readComma '\x7d' .endInObject .expectedObjectEnd r
          match next with
          | none => .ok ([(key, v)], r)
          | some _ => do
              let (ms, r) ← readMembers n r
              .ok ((key, v) :: ms, r)
      | _ => .error .keyNotString

end

def parse (text : String) : Except Fault Json := do
  let s := text.toList
  let (v, r) ← readValue (2 * s.length + 1) s
  match skipSpace r with
  | [] => .ok v
  | _ => .error .trailingText

end ViewBinding.Json
