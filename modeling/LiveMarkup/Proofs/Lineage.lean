import Mathlib.Data.Finset.Card
import Mathlib.Data.List.Nodup
import Mathlib.Tactic.Common

/-!
Forests given by links upwards. Nodes of a document and instances of a page both form one, and what
is walked there is walked with a bound on the steps; the bounds are never reached.
-/

namespace LiveMarkup

variable {α : Type} {up up' : α → Option α} {a b f g n p : α}

/-- Going up from `n` one comes to `a`, maybe at once. -/
inductive Above (up : α → Option α) (a : α) : α → Prop where
  | self : Above up a a
  | step {n p : α} : up n = some p → Above up a p → Above up a n

namespace Above

theorem of_up (h : up n = some p) : Above up p n :=
  .step h .self

theorem trans (hab : Above up a b) (hbn : Above up b n) : Above up a n := by
  induction hbn with
  | self => exact hab
  | step hup _ ih => exact .step hup ih

theorem cases_up (h : Above up a n) : n = a ∨ ∃ p, up n = some p ∧ Above up a p := by
  cases h with
  | self => exact Or.inl rfl
  | step hup habove => exact Or.inr ⟨_, hup, habove⟩

theorem eq_of_up_none (h : Above up a n) (hup : up n = none) : a = n := by
  rcases h.cases_up with heq | ⟨p, hp, _⟩
  · exact heq.symm
  · rw [hup] at hp
    cases hp

theorem above_up (h : Above up a n) (hne : n ≠ a) (hup : up n = some p) : Above up a p := by
  rcases h.cases_up with heq | ⟨q, hq, hqa⟩
  · exact absurd heq hne
  · rw [hup] at hq
    cases hq
    exact hqa

/-- What lies above one node lies in a line. -/
theorem linear (ha : Above up a n) (hb : Above up b n) : Above up a b ∨ Above up b a := by
  induction ha with
  | self => exact Or.inr hb
  | step hup hap ih =>
      rcases hb.cases_up with rfl | ⟨q, hq, hbq⟩
      · exact Or.inl (.step hup hap)
      · rw [hup] at hq
        cases hq
        exact ih hbq

/-- A path is still there when no link of it has changed. -/
theorem congr (h : Above up a n) (hsame : ∀ m, Above up a m → m ≠ a → up' m = up m) :
    Above up' a n := by
  induction h with
  | self => exact .self
  | step hup habove ih =>
      rename_i m q
      by_cases heq : m = a
      · exact heq ▸ .self
      · exact .step ((hsame m (.step hup habove) heq).trans hup) ih

/-- A way up that only takes links of another one. -/
theorem of_sub (h : Above up' a n) (hsub : ∀ m p, Above up m n → up' m = some p → up m = some p) :
    Above up a n := by
  induction h with
  | self => exact .self
  | @step m q hup _ ih =>
      have hold := hsub m q .self hup
      exact .step hold (ih fun x p hx hp => hsub x p (.step hold hx) hp)

/-- The way up is what it is made of. -/
theorem congr_up (hsame : ∀ m, Above up m n → up' m = up m) : Above up' a n ↔ Above up a n := by
  constructor
  · intro h
    exact h.of_sub fun m p hm hp => (hsame m hm).symm.trans hp
  · intro h
    induction h with
    | self => exact .self
    | step hup _ ih =>
        exact .step ((hsame _ .self).trans hup) (ih fun m hm => hsame m (.step hup hm))

end Above

/-- Nothing lies above itself. -/
def Acyclic (up : α → Option α) : Prop :=
  ∀ n p, up n = some p → ¬ Above up n p

namespace Acyclic

theorem antisymm (hacyclic : Acyclic up) (hab : Above up a b) (hba : Above up b a) : a = b := by
  rcases hab.cases_up with heq | ⟨p, hp, hap⟩
  · exact heq.symm
  · exact absurd (hba.trans hap) (hacyclic b p hp)

/-- Two nodes with one parent have nothing below them in common. -/
theorem eq_of_siblings (hacyclic : Acyclic up) (hf : up f = some p) (hg : up g = some p)
    (hfn : Above up f n) (hgn : Above up g n) : f = g := by
  rcases hfn.linear hgn with hfg | hgf
  · by_contra hne
    exact hacyclic f p hf (hfg.above_up (Ne.symm hne) hg)
  · by_contra hne
    exact hacyclic g p hg (hgf.above_up hne hf)

/-- Taking links away leaves no cycles. -/
theorem of_sub (hacyclic : Acyclic up) (hsub : ∀ n p, up' n = some p → up n = some p) :
    Acyclic up' := by
  intro n p hup habove
  exact hacyclic n p (hsub n p hup) (habove.of_sub fun m q _ hm => hsub m q hm)

/-- Links to a `p` from nodes that `p` does not lie below make no cycle. -/
theorem of_links (p : α) (moved : α → Prop) (hacyclic : Acyclic up)
    (hmoved : ∀ x, moved x → ¬ Above up x p ∧ up' x = some p)
    (hsub : ∀ n q, ¬ moved n → up' n = some q → up n = some q) : Acyclic up' := by
  have hold : ∀ {a n : α}, Above up' a n →
      Above up a n ∨ ∃ x, moved x ∧ Above up x n ∧ Above up a p := by
    intro a n h
    induction h with
    | self => exact Or.inl .self
    | @step m q hup _ ih =>
        by_cases hm : moved m
        · rw [(hmoved m hm).2] at hup
          cases hup
          rcases ih with hap | ⟨x, hx, hxp, _⟩
          · exact Or.inr ⟨m, hm, .self, hap⟩
          · exact absurd hxp (hmoved x hx).1
        · have hup' := hsub m q hm hup
          rcases ih with haq | ⟨x, hx, hxq, hap⟩
          · exact Or.inl (.step hup' haq)
          · exact Or.inr ⟨x, hx, .step hup' hxq, hap⟩
  intro n q hup habove
  by_cases hn : moved n
  · rw [(hmoved n hn).2] at hup
    cases hup
    rcases hold habove with hnp | ⟨_, _, _, hnp⟩
    · exact (hmoved n hn).1 hnp
    · exact (hmoved n hn).1 hnp
  · have hup' := hsub n q hn hup
    rcases hold habove with hnq | ⟨x, hx, hxq, hnp⟩
    · exact hacyclic n q hup' hnq
    · exact (hmoved x hx).1 ((Above.step hup' hxq).trans hnp)

end Acyclic

/-- A measure that every step upwards raises leaves no cycles. -/
theorem acyclic_of_rank (rank : α → Nat) (hrank : ∀ n p, up n = some p → rank n < rank p) :
    Acyclic up := by
  have hle : ∀ {a n : α}, Above up a n → rank n ≤ rank a := by
    intro a n h
    induction h with
    | self => exact le_refl _
    | step hup _ ih => exact le_trans (Nat.le_of_lt (hrank _ _ hup)) ih
  intro n p hup habove
  exact absurd (hle habove) (Nat.not_le_of_lt (hrank n p hup))

/-- `n` and what lies above it, nearest first, at most `steps` of them. -/
def lineage (up : α → Option α) : Nat → α → List α
  | 0, _ => []
  | steps + 1, n =>
    n :: match up n with
      | some p => lineage up steps p
      | none => []

theorem above_of_mem_lineage {steps : Nat} (h : a ∈ lineage up steps n) : Above up a n := by
  induction steps generalizing n with
  | zero => simp [lineage] at h
  | succ steps ih =>
      rw [lineage, List.mem_cons] at h
      rcases h with rfl | h
      · exact .self
      · cases hup : up n with
        | none => simp [hup] at h
        | some p => exact .step hup (ih (by simpa [hup] using h))

theorem exists_mem_lineage (h : Above up a n) : ∃ steps, a ∈ lineage up steps n := by
  induction h with
  | self => exact ⟨1, by simp [lineage]⟩
  | step hup _ ih =>
      obtain ⟨steps, hmem⟩ := ih
      exact ⟨steps + 1, by simp [lineage, hup, hmem]⟩

/-- What is found on the way up is still found when no link below it has changed. -/
theorem mem_lineage_congr {steps : Nat} (h : a ∈ lineage up steps n)
    (hsame : ∀ m, Above up a m → m ≠ a → up' m = up m) : a ∈ lineage up' steps n := by
  induction steps generalizing n with
  | zero => cases h
  | succ steps ih =>
      by_cases heq : n = a
      · simp [lineage, heq]
      · have hn := hsame n (above_of_mem_lineage h) heq
        rw [lineage, List.mem_cons] at h ⊢
        rw [hn]
        cases hup : up n with
        | none => simpa [hup] using h
        | some p =>
            simp only [hup] at h
            exact Or.inr (ih (h.resolve_left (Ne.symm heq)))

theorem length_lineage_le (up : α → Option α) (steps : Nat) (n : α) :
    (lineage up steps n).length ≤ steps := by
  induction steps generalizing n with
  | zero => simp [lineage]
  | succ steps ih =>
      rw [lineage]
      cases up n with
      | none => simp
      | some p => simpa using ih p

theorem lineage_eq_take (up : α → Option α) (steps more : Nat) (n : α) :
    lineage up steps n = (lineage up (steps + more) n).take steps := by
  induction steps generalizing n with
  | zero => simp [lineage]
  | succ steps ih =>
      rw [Nat.add_right_comm, lineage, lineage, List.take_succ_cons]
      cases up n with
      | none => simp
      | some p => simpa using ih p

theorem Acyclic.nodup_lineage (hacyclic : Acyclic up) (steps : Nat) (n : α) :
    (lineage up steps n).Nodup := by
  induction steps generalizing n with
  | zero => simp [lineage]
  | succ steps ih =>
      rw [lineage, List.nodup_cons]
      cases hup : up n with
      | none => simp
      | some p => exact ⟨fun hmem => hacyclic n p hup (above_of_mem_lineage hmem), ih p⟩

/-- The way up to a node is longer than the way up to one below it. -/
theorem Acyclic.mem_lineage_child (hacyclic : Acyclic up) {steps : Nat} (hup : up f = some a)
    (hmem : a ∈ lineage up (steps + 1) n) (hfn : Above up f n) : f ∈ lineage up steps n := by
  have hne : ∀ {m : α}, Above up f m → a ≠ m := by
    rintro m hfm rfl
    exact hacyclic f a hup hfm
  induction hfn generalizing steps with
  | self =>
      rw [lineage, hup, List.mem_cons] at hmem
      rcases hmem with rfl | hmem
      · exact absurd rfl (hne .self)
      · cases steps with
        | zero => simp [lineage] at hmem
        | succ steps => simp [lineage]
  | @step m p hm habove ih =>
      rw [lineage, hm, List.mem_cons] at hmem
      rcases hmem with rfl | hmem
      · exact absurd rfl (hne (.step hm habove))
      · cases steps with
        | zero => simp [lineage] at hmem
        | succ steps =>
            rw [lineage, hm]
            exact List.mem_cons_of_mem _ (ih hmem)

/-- Names below `bound` for everything that has a parent or is one. -/
structure Bounded (up : α → Option α) (index : α → Nat) (bound : Nat) : Prop where
  injective : Function.Injective index
  lower : ∀ {n p : α}, up n = some p → index n < bound
  upper : ∀ {n p : α}, up n = some p → index p < bound

section Bounded

variable {index : α → Nat} {bound : Nat}

theorem Bounded.index_lt (hbounded : Bounded up index bound) (h : Above up a n)
    (hn : index n < bound) : index a < bound := by
  induction h with
  | self => exact hn
  | step hup _ ih => exact ih (hbounded.upper hup)

theorem Bounded.length_lineage_le (hbounded : Bounded up index bound) (hacyclic : Acyclic up)
    (hn : index n < bound) (steps : Nat) : (lineage up steps n).length ≤ bound := by
  classical
  have hnodup : ((lineage up steps n).map index).Nodup :=
    (hacyclic.nodup_lineage steps n).map hbounded.injective
  have hsub : ((lineage up steps n).map index).toFinset ⊆ Finset.range bound := by
    intro i hi
    rw [List.mem_toFinset, List.mem_map] at hi
    obtain ⟨a, ha, rfl⟩ := hi
    exact Finset.mem_range.mpr (hbounded.index_lt (above_of_mem_lineage ha) hn)
  have hcard := Finset.card_le_card hsub
  rwa [List.toFinset_card_of_nodup hnodup, List.length_map, Finset.card_range] at hcard

/-- More steps than the bound find nothing more. -/
theorem Bounded.lineage_add (hbounded : Bounded up index bound) (hacyclic : Acyclic up)
    (hn : index n < bound) (more : Nat) :
    lineage up (bound + more) n = lineage up bound n := by
  rw [lineage_eq_take up bound more n, List.take_of_length_le]
  exact hbounded.length_lineage_le hacyclic hn _

theorem Bounded.mem_lineage_iff (hbounded : Bounded up index bound) (hacyclic : Acyclic up)
    (hn : index n < bound) : a ∈ lineage up bound n ↔ Above up a n := by
  constructor
  · exact above_of_mem_lineage
  · intro h
    obtain ⟨steps, hmem⟩ := exists_mem_lineage h
    rw [lineage_eq_take up steps bound n, Nat.add_comm, hbounded.lineage_add hacyclic hn] at hmem
    exact List.mem_of_mem_take hmem

theorem Bounded.lineage_eq (hbounded : Bounded up index bound) (hacyclic : Acyclic up)
    (hn : index n < bound) :
    lineage up bound n = n :: match up n with
      | some p => lineage up bound p
      | none => [] := by
  rw [← hbounded.lineage_add hacyclic hn 1, lineage]

end Bounded

end LiveMarkup
