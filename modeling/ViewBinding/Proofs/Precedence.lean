import Mathlib.Algebra.Group.Nat.Even
import Mathlib.Data.List.Induction
import ViewBinding.Proofs.Arguments

namespace ViewBinding.Proofs.Precedence

open Settings Arguments

inductive Setting where
  | outDir | suffix | registry | format | color | errorLimit
  deriving DecidableEq, Repr

def about : Change → Setting
  | .outDir _ => .outDir
  | .suffix _ => .suffix
  | .registry _ => .registry
  | .format _ => .format
  | .color _ => .color
  | .errorLimit _ => .errorLimit

/-- The value of a setting, told by the change that gives it this value. -/
def value (s : Settings) : Setting → Change
  | .outDir => .outDir s.outDir
  | .suffix => .suffix s.options.suffix
  | .registry => .registry s.options.registry
  | .format => .format s.format
  | .color => .color s.color
  | .errorLimit => .errorLimit s.errorLimit

def fixed (s : Settings) : ClassName × ClassName × ClassName × List ReservedNamespace :=
  (s.options.viewType, s.options.listenerType, s.options.companionInterface, s.options.reserved)

variable {s t : Settings} {a b p q : List String} {c d : Change} {x : String}

theorem settings_ext (hvalue : ∀ k, value s k = value t k) (hfixed : fixed s = fixed t) : s = t := by
  obtain ⟨outDir, format, color, errorLimit, options⟩ := s
  obtain ⟨outDir', format', color', errorLimit', options'⟩ := t
  obtain ⟨suffix, viewType, listenerType, companionInterface, reserved, registry⟩ := options
  obtain ⟨suffix', viewType', listenerType', companionInterface', reserved', registry'⟩ := options'
  cases hvalue .outDir
  cases hvalue .suffix
  cases hvalue .registry
  cases hvalue .format
  cases hvalue .color
  cases hvalue .errorLimit
  cases hfixed
  rfl

theorem value_apply (s : Settings) (c : Change) (k : Setting) :
    value (s.apply c) k = if about c = k then c else value s k := by
  cases c <;> cases k <;> rfl

theorem fixed_apply (s : Settings) (c : Change) : fixed (s.apply c) = fixed s := by
  cases c <;> rfl

theorem apply_comm (s : Settings) (h : about c ≠ about d) :
    (s.apply c).apply d = (s.apply d).apply c := by
  refine settings_ext (fun k => ?_) (by simp only [fixed_apply])
  simp only [value_apply]
  split_ifs with hd hc
  · exact absurd (hc.trans hd.symm) h
  · rfl
  · rfl
  · rfl

theorem value_foldl (s : Settings) (cs : List Change) (k : Setting) :
    value (cs.foldl apply s) k = ((cs.filter fun c => about c = k).getLast?).getD (value s k) := by
  induction cs using List.reverseRecOn with
  | nil => rfl
  | append_singleton cs c ih =>
      rw [List.foldl_append, List.foldl_cons, List.foldl_nil, value_apply, List.filter_append]
      split
      · next h => rw [List.filter_cons_of_pos (by simpa using h), List.filter_nil, List.getLast?_concat,
          Option.getD_some]
      · next h => rw [List.filter_cons_of_neg (by simpa using h), List.filter_nil, List.append_nil, ih]

theorem fixed_foldl (s : Settings) (cs : List Change) : fixed (cs.foldl apply s) = fixed s := by
  induction cs generalizing s with
  | nil => rfl
  | cons c cs ih => rw [List.foldl_cons, ih, fixed_apply]

/-- An `-o` takes whatever follows for its value, even another `-o`. So of those at the end the last one
does not wait for its value exactly if they are even in number. -/
def Settled (a : List String) : Prop := Even (a.reverse.takeWhile (· = "-o")).length

theorem settled_cons (hx : x ≠ "-o") : Settled (x :: a) ↔ Settled a := by
  rw [Settled, Settled, List.reverse_cons, List.takeWhile_append]
  split
  · next hall => rw [List.takeWhile_cons_of_neg (by simpa using hx), List.append_nil, ← hall]
  · rfl

theorem settled_short (dir : String) : Settled ("-o" :: dir :: a) ↔ Settled a := by
  rw [Settled, Settled, List.reverse_cons, List.reverse_cons, List.append_assoc, List.takeWhile_append]
  split
  · next hall =>
      by_cases hdir : dir = "-o"
      · simp [hdir, hall, Nat.even_add]
      · simp [hdir, hall]
  · rfl

theorem not_settled_short : ¬ Settled ["-o"] := by
  simp [Settled]

theorem settled_option (hp : Asks p c) : Settled (p ++ a) ↔ Settled a := by
  rcases asks_cases hp with ⟨dir, rfl, -⟩ | ⟨x, rfl, hx⟩
  · exact settled_short dir
  · exact settled_cons (ne_short_of_asks hx)

theorem readFrom_option (hp : Asks p c) (s : Settings) (a : List String) :
    readFrom s (p ++ a) = readFrom (s.apply c) a := by
  rcases asks_cases hp with ⟨dir, rfl, rfl⟩ | ⟨x, rfl, hx⟩
  · exact readFrom_short s dir a
  · rw [List.singleton_append, readFrom_cons (ne_short_of_asks hx), readArgument_of_asks hx]

theorem readFrom_ignored (hx : Ignored x) :
    ∃ w, ∀ s a, readFrom s (x :: a) = ((readFrom s a).1, w :: (readFrom s a).2) := by
  obtain ⟨w, hw⟩ := readArgument_of_ignored hx
  refine ⟨w, fun s a => ?_⟩
  rw [readFrom_cons (ne_short_of_ignored hx), hw]

/-- Arguments and the changes that the options among them ask for. -/
inductive Phrased : List String → List Change → Prop
  | nil : Phrased [] []
  | waiting : Phrased ["-o"] []
  | ignored {x : String} {a : List String} {cs : List Change} (hx : Ignored x) (h : Phrased a cs) :
      Phrased (x :: a) cs
  | option {p a : List String} {c : Change} {cs : List Change} (hp : Asks p c) (h : Phrased a cs) :
      Phrased (p ++ a) (c :: cs)

theorem exists_phrased : (a : List String) → ∃ cs, Phrased a cs
  | [] => ⟨[], .nil⟩
  | x :: a => by
      by_cases hx : x = "-o"
      · subst hx
        cases a with
        | nil => exact ⟨[], .waiting⟩
        | cons dir a =>
            obtain ⟨cs, h⟩ := exists_phrased a
            exact ⟨_, .option (.short dir) h⟩
      · obtain ⟨cs, h⟩ := exists_phrased a
        rcases asks_or_ignored hx with ⟨c, hasks⟩ | hignored
        · exact ⟨_, .option hasks h⟩
        · exact ⟨cs, .ignored hignored h⟩

theorem readFrom_phrased {cs : List Change} (h : Phrased a cs) (s : Settings) :
    (readFrom s a).1 = cs.foldl apply s := by
  induction h generalizing s with
  | nil => rfl
  | waiting => rfl
  | ignored hx h ih =>
      obtain ⟨w, hw⟩ := readFrom_ignored hx
      rw [hw, ih]
  | option hp h ih => rw [readFrom_option hp, ih, List.foldl_cons]

theorem readFrom_append (ha : Settled a) (s : Settings) (b : List String) :
    readFrom s (a ++ b) =
      ((readFrom (readFrom s a).1 b).1, (readFrom s a).2 ++ (readFrom (readFrom s a).1 b).2) := by
  obtain ⟨cs, h⟩ := exists_phrased a
  induction h generalizing s with
  | nil => rfl
  | waiting => exact absurd ha not_settled_short
  | ignored hx h ih =>
      obtain ⟨w, hw⟩ := readFrom_ignored hx
      rw [List.cons_append, hw, hw, ih ((settled_cons (ne_short_of_ignored hx)).mp ha)]
      rfl
  | option hp h ih =>
      rw [List.append_assoc, readFrom_option hp, readFrom_option hp, ih ((settled_option hp).mp ha)]

theorem readFrom_skip (ha : Settled a) (hx : Ignored x) (s : Settings) (b : List String) :
    (readFrom s (a ++ x :: b)).1 = (readFrom s (a ++ b)).1 := by
  obtain ⟨w, hw⟩ := readFrom_ignored hx
  rw [readFrom_append ha, readFrom_append ha, hw]

theorem readFrom_append_option (ha : Settled a) (hp : Asks p c) (s : Settings) :
    (readFrom s (a ++ p)).1 = (readFrom s a).1.apply c := by
  have hread := readFrom_option hp (readFrom s a).1 []
  rw [List.append_nil] at hread
  rw [readFrom_append ha, hread]
  rfl

theorem readFrom_swap (ha : Settled a) (hp : Asks p c) (hq : Asks q d) (h : about c ≠ about d)
    (s : Settings) (b : List String) :
    readFrom s (a ++ p ++ q ++ b) = readFrom s (a ++ q ++ p ++ b) := by
  simp only [List.append_assoc]
  rw [readFrom_append ha, readFrom_append ha, readFrom_option hp, readFrom_option hq, readFrom_option hq,
    readFrom_option hp, apply_comm _ h]

/-- Arguments that do not leave an `-o` waiting are read, and then those behind them on top of that.
Behind them an argument that is no option, or one with a value that is rejected, can be left out; an
option changes the setting it is about and nothing else; and two options in a row about different settings
can be given the other way round. Whatever the arguments, a setting has the value that the last option
about it asks for, if there is one. -/
theorem readFrom_composes (s : Settings) :
    (∀ a b, Settled a → readFrom s (a ++ b) =
      ((readFrom (readFrom s a).1 b).1, (readFrom s a).2 ++ (readFrom (readFrom s a).1 b).2)) ∧
    (∀ x, x ≠ "-o" → (Ignored x ↔ ¬ ∃ c, Asks [x] c)) ∧
    (∀ a x b, Settled a → Ignored x → (readFrom s (a ++ x :: b)).1 = (readFrom s (a ++ b)).1) ∧
    (∀ a p c, Settled a → Asks p c →
      (∀ k, value (readFrom s (a ++ p)).1 k = if about c = k then c else value (readFrom s a).1 k) ∧
        fixed (readFrom s (a ++ p)).1 = fixed (readFrom s a).1) ∧
    (∀ a p c q d b, Settled a → Asks p c → Asks q d → about c ≠ about d →
      readFrom s (a ++ p ++ q ++ b) = readFrom s (a ++ q ++ p ++ b)) ∧
    ∀ a, (∃ cs, Phrased a cs) ∧ ∀ cs, Phrased a cs →
      (∀ k, value (readFrom s a).1 k =
        ((cs.filter fun c => about c = k).getLast?).getD (value s k)) ∧
      fixed (readFrom s a).1 = fixed s := by
  refine ⟨fun a b ha => readFrom_append ha s b, fun x => ignored_iff,
    fun a x b ha hx => readFrom_skip ha hx s b, fun a p c ha hp => ?_,
    fun a p c q d b ha hp hq h => readFrom_swap ha hp hq h s b,
    fun a => ⟨exists_phrased a, fun cs h => ?_⟩⟩
  · rw [readFrom_append_option ha hp]
    exact ⟨value_apply _ c, fixed_apply _ c⟩
  · rw [readFrom_phrased h]
    exact ⟨value_foldl s cs, fixed_foldl s cs⟩

/-- An `-o` takes the `-o` behind it, which is no option then; what follows stands where an option can. -/
theorem readFrom_composes_shorts :
    readFrom standard (["-o", "-o"] ++ ["--suffix=_View"] ++ ["--no-registry"] ++ ["--color=red"]) =
      readFrom standard (["-o", "-o"] ++ ["--no-registry"] ++ ["--suffix=_View"] ++ ["--color=red"]) ∧
    (readFrom standard (["-o", "-o"] ++ "--suffix=" :: ["--format=json"])).1 =
      (readFrom standard (["-o", "-o"] ++ ["--format=json"])).1 := by
  obtain ⟨-, -, hskip, -, hswap, -⟩ := readFrom_composes standard
  have hsettled : Settled ["-o", "-o"] := (settled_short "-o").mpr ⟨0, rfl⟩
  exact ⟨hswap _ _ _ _ _ _ hsettled (.suffix (by decide) : Asks ["--suffix=" ++ "_View"] _) .noRegistry
    (by decide), hskip _ _ _ hsettled .suffix⟩

end ViewBinding.Proofs.Precedence
