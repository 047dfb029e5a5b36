import ViewBinding.Manifest.Basic
import ViewBinding.Proofs.Members
import ViewBinding.Proofs.Records

namespace ViewBinding.Proofs.Strictness

open Manifest Standing Members

/-- A part of a JSON value under a shape, `w`, with the shape that is expected of it there, `part`. -/
inductive Within (part : Shape) (w : Json) : Shape → Json → Prop
  | self : Within part w part w
  | element {shape : Shape} {v : Json} {vs : List Json} (hv : v ∈ vs) (h : Within part w shape v) :
      Within part w (.list shape) (.array vs)
  | present {shape : Shape} {v : Json} (hv : v ≠ .null) (h : Within part w shape v) :
      Within part w (.optional shape) v
  | named {key name : String} {required : Bool} {shape : Shape} {members : Manifest.Members}
      {get : members.Carrier → shape.Carrier} {v : Json} {ms : List (String × Json)}
      (hkey : Component key required shape members get) (hv : (key, v) ∈ ms)
      (h : Within part w shape v) : Within part w (.record name members) (.object ms)
  | listed {key name : String} {required : Bool} {shape : Shape} {members : Manifest.Members}
      {get : members.Carrier → shape.Carrier} {v : Json} {vs : List Json}
      (hkey : Component key required shape members get) (hv : valueAt members key vs = some v)
      (h : Within part w shape v) : Within part w (.record name members) (.array vs)

theorem Within.stands {part shape : Shape} {v w : Json} (h : Within part w shape v)
    {a : shape.Carrier} (ha : Stands shape v a) : ∃ b, Stands part w b := by
  induction h with
  | self => exact ⟨a, ha⟩
  | element hv _ ih =>
      obtain ⟨vs, hvs, has⟩ := ha
      cases hvs
      obtain ⟨b, hb⟩ := exists_of_forall₂ has hv
      exact ih hb
  | present hv _ ih =>
      obtain ⟨hnull, -⟩ | ⟨-, b, -, hb⟩ := ha
      · exact absurd hnull hv
      · exact ih hb
  | named hkey hv _ ih =>
      obtain ⟨ms, hms, ha⟩ | ⟨vs, hvs, -⟩ := ha
      · cases hms
        have hholds := holds_named hkey ha
        rw [valuesOf_eq ha hv] at hholds
        exact ih hholds
      · cases hvs
  | listed hkey hv _ ih =>
      obtain ⟨ms, hms, -⟩ | ⟨vs, hvs, ha⟩ := ha
      · cases hms
      · cases hvs
        have hholds := holds_listed hkey ha
        rw [hv] at hholds
        exact ih hholds

/-- The text is a JSON value in which every object that stands for a record names members of it only,
none twice and all that are required. -/
def Strict (text : String) : Prop :=
  ∃ v, Json.parse text = .ok v ∧ ∀ name members ms, Within (.record name members) (.object ms) shape v →
    (ms.map Prod.fst).Nodup ∧ (∀ key ∈ ms.map Prod.fst, key ∈ members.keys) ∧
      ∀ key ∈ requiredKeys members, key ∈ ms.map Prod.fst

theorem strict_of_stands {text : String} {v : Json} {a : shape.Carrier} (hv : Json.parse text = .ok v)
    (ha : Stands shape v a) : Strict text := by
  refine ⟨v, hv, fun name members ms h => ?_⟩
  obtain ⟨b, ⟨_, hms, hb⟩ | ⟨vs, hvs, -⟩⟩ := h.stands ha
  · cases hms
    refine ⟨keys_nodup hb, fun key hkey => ?_, fun key hkey => mem_of_required members hb hkey⟩
    obtain ⟨m, hm, rfl⟩ := List.mem_map.mp hkey
    exact mem_keys members hb hm
  · cases hvs

/-- What is read is strict, and what is not is refused before any name in it is looked at. -/
theorem parse_strict (text : String) :
    (∀ rounds, parse text = .ok rounds → Strict text) ∧
      (¬ Strict text → ∃ fault, parse text = .error (.malformed fault)) := by
  cases h : shape.parse text.toList with
  | ok a =>
      obtain ⟨v, hv, ha⟩ := Records.parse_eq_ok_iff.mp h
      have hstrict := strict_of_stands hv ha
      exact ⟨fun _ _ => hstrict, fun hnot => absurd hstrict hnot⟩
  | error fault =>
      have hparse : parse text = .error (.malformed fault) := by
        rw [parse, h]
        rfl
      refine ⟨fun rounds hrounds => ?_, fun _ => ⟨fault, hparse⟩⟩
      rw [hparse] at hrounds
      cases hrounds

end ViewBinding.Proofs.Strictness
