import Mathlib.Data.List.Forall2

/-!
# SpannerAdbc.Lib.Result

Computations in `Except`: when a chain of them succeeds, and with what.
-/

namespace SpannerAdbc
namespace Lib

variable {ε α β : Type} {f : α → Except ε β} {as : List α} {bs : List β}

/-- A chain succeeds exactly when both parts do. -/
theorem bind_eq_ok {x : Except ε α} {b : β} :
    (x >>= f) = .ok b ↔ ∃ a, x = .ok a ∧ f a = .ok b := by
  cases x with
  | error e => simp [Bind.bind, Except.bind]
  | ok a => simp [Bind.bind, Except.bind]

/-- A loop that collects results succeeds exactly when every step does. -/
theorem mapM_eq_ok :
    as.mapM f = .ok bs ↔ List.Forall₂ (fun a b => f a = .ok b) as bs := by
  induction as generalizing bs with
  | nil =>
    rw [List.mapM_nil, List.forall₂_nil_left_iff]
    exact ⟨fun h => (Except.ok.inj h).symm, fun h => h ▸ rfl⟩
  | cons a as ih =>
    rw [List.mapM_cons, bind_eq_ok, List.forall₂_cons_left_iff]
    constructor
    · rintro ⟨b, hb, h⟩
      obtain ⟨rest, hrest, hbs⟩ := bind_eq_ok.mp h
      exact ⟨b, rest, hb, ih.mp hrest, (Except.ok.inj hbs).symm⟩
    · rintro ⟨b, rest, hb, hrest, rfl⟩
      exact ⟨b, hb, bind_eq_ok.mpr ⟨rest, ih.mpr hrest, rfl⟩⟩

theorem step_of_mapM (h : as.mapM f = .ok bs) :
    ∀ a ∈ as, ∃ b ∈ bs, f a = .ok b := by
  have h := mapM_eq_ok.mp h
  induction h with
  | nil => simp
  | @cons a b as bs hab _ ih =>
    intro x hx
    rcases List.mem_cons.mp hx with rfl | hx
    · exact ⟨b, List.mem_cons_self, hab⟩
    · obtain ⟨y, hy, e⟩ := ih (mapM_eq_ok.mpr ‹_›) x hx
      exact ⟨y, List.mem_cons_of_mem _ hy, e⟩

theorem exists_mapM (h : ∀ a ∈ as, ∃ b, f a = .ok b) :
    ∃ bs, as.mapM f = .ok bs := by
  induction as with
  | nil => exact ⟨[], rfl⟩
  | cons a as ih =>
    obtain ⟨⟨b, hb⟩, hrest⟩ := List.forall_mem_cons.mp h
    obtain ⟨bs, hbs⟩ := ih hrest
    exact ⟨b :: bs, mapM_eq_ok.mpr (.cons hb (mapM_eq_ok.mp hbs))⟩

theorem mapM_congr {g : α → Except ε β} (h : ∀ a ∈ as, f a = g a) :
    as.mapM f = as.mapM g := by
  induction as with
  | nil => rfl
  | cons a as ih =>
    obtain ⟨ha, hrest⟩ := List.forall_mem_cons.mp h
    rw [List.mapM_cons, List.mapM_cons, ha, ih hrest]

/-- A loop of checks passes exactly when every check does. -/
theorem forM_eq_ok {f : α → Except ε Unit} :
    as.forM f = .ok () ↔ ∀ a ∈ as, f a = .ok () := by
  induction as with
  | nil => exact ⟨fun _ _ h => (nomatch h), fun _ => rfl⟩
  | cons a as ih =>
    change (f a >>= fun _ => as.forM f) = _ ↔ _
    rw [bind_eq_ok, List.forall_mem_cons, ← ih]
    exact ⟨fun ⟨_, h₁, h₂⟩ => ⟨h₁, h₂⟩, fun ⟨h₁, h₂⟩ => ⟨(), h₁, h₂⟩⟩

theorem mapError_eq_ok {ε' : Type} {f : ε → ε'} {x : Except ε α} {a : α} :
    x.mapError f = .ok a ↔ x = .ok a := by
  cases x with
  | error e => simp [Except.mapError]
  | ok b => simp [Except.mapError]

/-- A loop that collects results, when each result is known by the position. -/
theorem mapM_eq_some {f : α → Option β} {g : Nat → β}
    (h : ∀ i a, as[i]? = some a → f a = some (g i)) :
    as.mapM f = some ((List.range as.length).map g) := by
  induction as generalizing g with
  | nil => rfl
  | cons a as ih =>
    have hrest := ih (g := fun i => g (i + 1)) fun i b hb => h (i + 1) b (by simpa using hb)
    rw [List.mapM_cons, h 0 a rfl, hrest, List.length_cons, List.range_succ_eq_map, List.map_cons,
      List.map_map]
    rfl

/-- Two loops, the second over what the first one collects, when every step of both succeeds. -/
theorem mapM_mapM {γ δ : Type} {g : β → Option γ} {m : γ → δ} {k : α → δ} (as : List α)
    (h : ∀ a ∈ as, ∃ b c, f a = .ok b ∧ g b = some c ∧ m c = k a) :
    ∃ bs cs, as.mapM f = .ok bs ∧ bs.mapM g = some cs ∧ cs.map m = as.map k := by
  induction as with
  | nil => exact ⟨[], [], rfl, rfl, rfl⟩
  | cons a as ih =>
    obtain ⟨⟨b, c, hb, hc, hm⟩, hrest⟩ := List.forall_mem_cons.mp h
    obtain ⟨bs, cs, hbs, hcs, hms⟩ := ih hrest
    refine ⟨b :: bs, c :: cs, mapM_eq_ok.mpr (.cons hb (mapM_eq_ok.mp hbs)), ?_, ?_⟩
    · rw [List.mapM_cons, hc, hcs]
      rfl
    · rw [List.map_cons, List.map_cons, hm, hms]

/-- A loop over values that were written from others, when each is read as what it stands for. -/
theorem mapM_map_eq_some {γ : Type} {f : β → Option γ} {g : α → β} {h : α → γ}
    (hf : ∀ a ∈ as, f (g a) = some (h a)) : (as.map g).mapM f = some (as.map h) := by
  induction as with
  | nil => rfl
  | cons a as ih =>
    obtain ⟨ha, hrest⟩ := List.forall_mem_cons.mp hf
    rw [List.map_cons, List.mapM_cons, ha, ih hrest]
    rfl

/-- If the loop succeeds then so does every step. -/
theorem isSome_of_mapM {f : α → Option β} (h : as.mapM f = some bs) :
    ∀ a ∈ as, (f a).isSome = true := by
  induction as generalizing bs with
  | nil => simp
  | cons a as ih =>
    rw [List.mapM_cons] at h
    obtain ⟨b, hb, h⟩ := Option.bind_eq_some_iff.mp h
    obtain ⟨rest, hrest, -⟩ := Option.bind_eq_some_iff.mp h
    exact List.forall_mem_cons.mpr ⟨by rw [hb]; rfl, ih hrest⟩

/-- A result together with what its success shows. -/
def attach {P : α → Prop} : (r : Except ε α) → (∀ a, r = .ok a → P a) → Except ε { a // P a }
  | .error e, _ => .error e
  | .ok a, h => .ok ⟨a, h a rfl⟩

/-! ## Computations that succeed under a condition -/

/-- Succeeds exactly if the condition holds, with a result that has the property. -/
structure Settles (r : Except ε α) (condition : Prop) (P : α → Prop) : Prop where
  ok : condition → ∃ a, r = .ok a ∧ P a
  error : ¬ condition → ∃ e, r = .error e

namespace Settles

variable {r : Except ε α} {f : α → Except ε β} {p q : Prop} {P : α → Prop} {Q : β → Prop}

theorem of_ok {a : α} (h : r = .ok a) (ha : P a) : Settles r True P :=
  ⟨fun _ => ⟨a, h, ha⟩, fun h => (h trivial).elim⟩

theorem bind (hr : Settles r p P) (hf : ∀ a, P a → Settles (f a) q Q) :
    Settles (r >>= f) (p ∧ q) Q := by
  by_cases hp : p
  · obtain ⟨a, rfl, ha⟩ := hr.ok hp
    refine ⟨fun h => (hf a ha).ok h.2, fun h => (hf a ha).error fun hq => h ⟨hp, hq⟩⟩
  · obtain ⟨e, rfl⟩ := hr.error hp
    exact ⟨fun h => absurd h.1 hp, fun _ => ⟨e, rfl⟩⟩

theorem ok_bind {a : α} (h : r = .ok a) (hf : Settles (f a) q Q) : Settles (r >>= f) q Q := by
  rw [h]
  exact hf

theorem congr (h : Settles r p P) (hpq : p ↔ q) : Settles r q P :=
  ⟨fun hq => h.ok (hpq.mpr hq), fun hq => h.error fun hp => hq (hpq.mp hp)⟩

theorem attach {R : α → Prop} (h : Settles r p P) (hr : ∀ a, r = .ok a → R a) :
    Settles (Lib.attach r hr) p fun b => P b.1 := by
  cases r with
  | error e =>
    refine ⟨fun hp => ?_, fun _ => ⟨e, rfl⟩⟩
    obtain ⟨a, ha, -⟩ := h.ok hp
    cases ha
  | ok a =>
    refine ⟨fun hp => ?_, fun hp => ?_⟩
    · obtain ⟨a', ha, hP⟩ := h.ok hp
      cases ha
      exact ⟨⟨a, hr a rfl⟩, rfl, hP⟩
    · obtain ⟨e, he⟩ := h.error hp
      cases he

theorem mapError {ε' : Type} (h : Settles r p P) (g : ε → ε') : Settles (r.mapError g) p P := by
  constructor
  · intro hp
    obtain ⟨a, rfl, ha⟩ := h.ok hp
    exact ⟨a, rfl, ha⟩
  · intro hp
    obtain ⟨e, rfl⟩ := h.error hp
    exact ⟨g e, rfl⟩

/-- A part that is only built if the flag is set. -/
theorem ite {s : Except ε α} {flag : Bool} (hr : flag = true → Settles r p P)
    (hs : flag = false → Settles s True P) :
    Settles (if flag then r else s) (flag = true → p) P := by
  cases flag with
  | false => exact (hs rfl).congr ⟨fun _ h => (nomatch h), fun _ => trivial⟩
  | true => exact (hr rfl).congr ⟨fun hp _ => hp, fun hp => hp rfl⟩

end Settles

end Lib
end SpannerAdbc
