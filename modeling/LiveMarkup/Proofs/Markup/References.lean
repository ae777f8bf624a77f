import LiveMarkup.Proofs.Markup.Escaped

/-!
References in texts. A text that is no sequence of references and plain characters is read one name
after the other; since no character that is written comes back in a later reference, this is one pass
from left to right. Either way a text that stands for another one is read as that one.
-/

namespace LiveMarkup

/-! ### Replacing -/

namespace Text

variable {mark new s : List Char} {c : Char}

theorem replaceAll_of_cut {before after : List Char} (hmark : mark ≠ [])
    (h : cut mark s = some (before, after)) :
    replaceAll mark new hmark s = before ++ new ++ replaceAll mark new hmark after := by
  rw [replaceAll]
  split
  · rename_i heq
    rw [h] at heq
    cases heq
  · rename_i heq
    rw [h] at heq
    cases heq
    rfl

theorem replaceAll_of_cut_eq_none (hmark : mark ≠ []) (h : cut mark s = none) :
    replaceAll mark new hmark s = s := by
  rw [replaceAll]
  split
  · rfl
  · rename_i heq
    rw [h] at heq
    cases heq

theorem replaceAll_nil (hmark : mark ≠ []) : replaceAll mark new hmark [] = [] := by
  apply replaceAll_of_cut_eq_none
  rw [cut, if_neg]
  simpa using hmark

theorem replaceAll_mark (hmark : mark ≠ []) (rest : List Char) :
    replaceAll mark new hmark (mark ++ rest) = new ++ replaceAll mark new hmark rest := by
  have hcut : cut mark (mark ++ rest) = some ([], rest) := by
    cases mark with
    | nil => exact absurd rfl hmark
    | cons m mark =>
        have hfront : (m :: mark).isPrefixOf (m :: (mark ++ rest)) = true :=
          List.isPrefixOf_iff_prefix.mpr ⟨rest, rfl⟩
        rw [List.cons_append, cut, if_pos hfront]
        simp
  exact replaceAll_of_cut hmark hcut

theorem replaceAll_cons (hmark : mark ≠ []) (hnot : mark.isPrefixOf (c :: s) = false) :
    replaceAll mark new hmark (c :: s) = c :: replaceAll mark new hmark s := by
  cases hrest : cut mark s with
  | none =>
      have hcut : cut mark (c :: s) = none := by
        rw [cut, hnot, if_neg Bool.false_ne_true, hrest, Option.map_none]
      rw [replaceAll_of_cut_eq_none hmark hcut, replaceAll_of_cut_eq_none hmark hrest]
  | some parts =>
      have hcut : cut mark (c :: s) = some (c :: parts.1, parts.2) := by
        rw [cut, hnot, if_neg Bool.false_ne_true, hrest, Option.map_some]
      rw [replaceAll_of_cut hmark hcut, replaceAll_of_cut hmark hrest]
      rfl

end Text

namespace Markup

open Text

variable {c d : Char} {name : String} {names : List (String × Char)} {w s t raw rest : List Char}

/-! ### One pass -/

/-- How a name is referred to. -/
def reference (name : String) : List Char :=
  '&' :: name.toList ++ [';']

theorem reference_ne_nil (name : String) : reference name ≠ [] :=
  List.cons_ne_nil _ _

theorem reference_append (name : String) (rest : List Char) :
    reference name ++ rest = '&' :: (name.toList ++ ';' :: rest) := by
  simp [reference]

/-- Writes the character for every reference to one of the names, in one pass. -/
def decodeNames (names : List (String × Char)) (s : List Char) : List Char :=
  match s with
  | [] => []
  | c :: rest =>
    match names.find? fun entry => (reference entry.1).isPrefixOf (c :: rest) with
    | some (name, d) => d :: decodeNames names (rest.drop (name.toList.length + 1))
    | none => c :: decodeNames names rest
termination_by s.length
decreasing_by all_goals simp; try omega

theorem decodeNames_nil (s : List Char) : decodeNames [] s = s := by
  induction s with
  | nil => rw [decodeNames]
  | cons c s ih =>
      rw [decodeNames]
      simp [ih]

theorem decodeNames_found (hfound : names.find? (fun entry =>
      (reference entry.1).isPrefixOf (reference name ++ rest)) = some (name, d)) :
    decodeNames names (reference name ++ rest) = d :: decodeNames names rest := by
  rw [reference_append] at hfound ⊢
  rw [decodeNames, hfound]
  simp

theorem decodeNames_cons (hnot : ∀ entry ∈ names, (reference entry.1).isPrefixOf (c :: rest) = false) :
    decodeNames names (c :: rest) = c :: decodeNames names rest := by
  have hnone : names.find? (fun entry => (reference entry.1).isPrefixOf (c :: rest)) = none :=
    List.find?_eq_none.mpr fun entry hentry => by simp [hnot entry hentry]
  rw [decodeNames, hnone]

theorem isPrefixOf_reference_of_ne (hc : c ≠ '&') (name : String) (rest : List Char) :
    (reference name).isPrefixOf (c :: rest) = false :=
  isPrefixOf_of_ne (Ne.symm hc) _ _

theorem decodeNames_plain (hw : '&' ∉ w) (rest : List Char) :
    decodeNames names (w ++ rest) = w ++ decodeNames names rest := by
  induction w with
  | nil => rfl
  | cons c w ih =>
      rw [List.mem_cons, not_or] at hw
      rw [List.cons_append, List.cons_append, ← ih hw.2]
      exact decodeNames_cons fun entry _ => isPrefixOf_reference_of_ne (Ne.symm hw.1) _ _

/-- What the pass writes is no part of a word without those characters. -/
theorem isPrefixOf_decodeNames (hamp : '&' ∉ w) (hw : ∀ entry ∈ names, entry.2 ∉ w) :
    w <+: decodeNames names s ↔ w <+: s := by
  induction w generalizing s with
  | nil => simp
  | cons x w ih =>
      rw [List.mem_cons, not_or] at hamp
      have hrest : ∀ entry ∈ names, entry.2 ∉ w := fun entry hentry hmem =>
        hw entry hentry (List.mem_cons_of_mem x hmem)
      cases s with
      | nil => rw [decodeNames]
      | cons c s =>
          cases hfind : names.find? fun entry => (reference entry.1).isPrefixOf (c :: s) with
          | none =>
              rw [decodeNames, hfind, List.cons_prefix_cons, List.cons_prefix_cons, ih hamp.2 hrest]
          | some entry =>
              have hfront := List.find?_some hfind
              have hmem := List.mem_of_find?_eq_some hfind
              rw [reference, List.cons_append, List.isPrefixOf_iff_prefix,
                List.cons_prefix_cons] at hfront
              rw [decodeNames, hfind, List.cons_prefix_cons, List.cons_prefix_cons]
              constructor
              · rintro ⟨rfl, -⟩
                exact absurd List.mem_cons_self (hw entry hmem)
              · rintro ⟨rfl, -⟩
                exact absurd hfront.1 hamp.1

theorem replaceAll_plain (hw : '&' ∉ w) (rest : List Char) :
    replaceAll (reference name) t (reference_ne_nil name) (w ++ rest) =
      w ++ replaceAll (reference name) t (reference_ne_nil name) rest := by
  induction w with
  | nil => rfl
  | cons c w ih =>
      rw [List.mem_cons, not_or] at hw
      rw [List.cons_append, List.cons_append, ← ih hw.2]
      exact replaceAll_cons _ (isPrefixOf_reference_of_ne (Ne.symm hw.1) _ _)

/-- Replacing one more name after a pass is a pass with that name too, when nothing that the pass
writes belongs to the reference. -/
theorem replaceAll_decodeNames (hname : '&' ∉ name.toList)
    (hwritten : ∀ entry ∈ names, entry.2 ∉ reference name) (s : List Char) :
    replaceAll (reference name) [d] (reference_ne_nil name) (decodeNames names s) =
      decodeNames (names ++ [(name, d)]) s := by
  have hword : '&' ∉ name.toList ++ [';'] := by simpa using hname
  have hword' : ∀ entry ∈ names, entry.2 ∉ name.toList ++ [';'] := fun entry hentry hmem =>
    hwritten entry hentry (List.mem_cons_of_mem _ hmem)
  induction s using decodeNames.induct names with
  | case1 => rw [decodeNames, decodeNames, replaceAll_nil]
  | case2 c rest other e hfind ih =>
      have he : e ≠ '&' := by
        rintro rfl
        exact hwritten _ (List.mem_of_find?_eq_some hfind) List.mem_cons_self
      rw [decodeNames, decodeNames, List.find?_append, hfind, Option.some_or]
      dsimp only
      rw [← ih]
      exact replaceAll_cons _ (isPrefixOf_reference_of_ne he _ _)
  | case3 c rest hfind ih =>
      have hhead : decodeNames names (c :: rest) = c :: decodeNames names rest := by
        rw [decodeNames, hfind]
      rw [hhead]
      by_cases hfront : reference name <+: c :: rest
      · -- The pass leaves the reference as it is; what follows it is found behind the name.
        obtain ⟨after, hafter⟩ := hfront
        rw [← hafter] at hfind ⊢
        rw [reference_append, List.cons.injEq] at hafter
        obtain ⟨rfl, rfl⟩ := hafter
        rw [List.append_cons, decodeNames_plain hword, replaceAll_plain hword,
          decodeNames_plain hword, List.append_cancel_left_eq] at ih
        have hfound : (names ++ [(name, d)]).find? (fun entry =>
            (reference entry.1).isPrefixOf (reference name ++ after)) = some (name, d) := by
          rw [List.find?_append, hfind]
          simp
        have hcopied : '&' :: decodeNames names (name.toList ++ ';' :: after) =
            reference name ++ decodeNames names after := by
          rw [List.append_cons, decodeNames_plain hword, reference_append, List.append_assoc]
          rfl
        rw [decodeNames_found hfound, ← ih, hcopied]
        exact replaceAll_mark (reference_ne_nil name) _
      · have hfront' : ¬ reference name <+: c :: decodeNames names rest := by
          rw [reference, List.cons_append, List.cons_prefix_cons] at hfront ⊢
          rwa [isPrefixOf_decodeNames hword hword']
        rw [← List.isPrefixOf_iff_prefix, Bool.not_eq_true] at hfront hfront'
        rw [replaceAll_cons _ hfront', ih, decodeNames, List.find?_append, hfind, Option.none_or]
        simp [hfront]

/-- Replacing names one after the other is one pass when no character that is written belongs to a
later reference. -/
theorem foldl_replaceAll {todo done : List (String × Char)}
    (hnames : ∀ entry ∈ todo, '&' ∉ entry.1.toList)
    (horder : (done ++ todo).Pairwise fun entry later => entry.2 ∉ reference later.1)
    (s : List Char) :
    todo.foldl (fun s (name, c) => replaceAll (reference name) [c] (reference_ne_nil name) s)
      (decodeNames done s) = decodeNames (done ++ todo) s := by
  induction todo generalizing done with
  | nil => rw [List.foldl_nil, List.append_nil]
  | cons entry todo ih =>
      obtain ⟨name, d⟩ := entry
      rw [List.forall_mem_cons] at hnames
      rw [List.append_cons] at horder ⊢
      have hwritten : ∀ earlier ∈ done, earlier.2 ∉ reference name := fun earlier hearlier =>
        (List.pairwise_append.mp (List.pairwise_append.mp horder).1).2.2 earlier hearlier (name, d)
          (List.mem_singleton_self _)
      rw [List.foldl_cons]
      dsimp only
      rw [replaceAll_decodeNames hnames.1 hwritten]
      exact ih hnames.2 horder

theorem decodeLenient_eq (s : List Char) : decodeLenient s = decodeNames predefined s := by
  have hnames : ∀ entry ∈ predefined, '&' ∉ entry.1.toList := by decide
  have horder : (([] : List (String × Char)) ++ predefined).Pairwise
      fun entry later => entry.2 ∉ reference later.1 := by
    decide
  have hfold := foldl_replaceAll hnames horder s
  rw [decodeNames_nil] at hfold
  exact hfold

theorem decodeNames_predefined (hname : (name, c) ∈ predefined) (rest : List Char) :
    decodeNames predefined (reference name ++ rest) = c :: decodeNames predefined rest := by
  apply decodeNames_found
  simp only [predefined, List.mem_cons, Prod.mk.injEq, List.not_mem_nil, or_false] at hname
  rcases hname with ⟨rfl, rfl⟩ | ⟨rfl, rfl⟩ | ⟨rfl, rfl⟩ | ⟨rfl, rfl⟩ | ⟨rfl, rfl⟩ <;> rfl

/-! ### What a text stands for -/

/-- Whether an `&` before a text begins a reference. -/
def beginsReference (s : List Char) : Bool :=
  match s.dropWhile isNameChar with
  | ';' :: _ => (referenced? (s.takeWhile isNameChar)).isSome
  | _ => false

def holdsReference : List Char → Bool
  | [] => false
  | c :: rest => (c = '&' && beginsReference rest) || holdsReference rest

/-- A text in which characters stand for themselves or are referred to by name. -/
inductive Stands : List Char → List Char → Prop where
  | nil : Stands [] []
  | plain {c : Char} {raw s : List Char} (hc : c ≠ '&') (h : Stands raw s) :
    Stands (c :: raw) (c :: s)
  | bare {raw s : List Char} (hnot : beginsReference raw = false) (h : Stands raw s) :
    Stands ('&' :: raw) ('&' :: s)
  | reference {name : String} {c : Char} {raw s : List Char} (hname : (name, c) ∈ predefined)
    (h : Stands raw s) : Stands (reference name ++ raw) (c :: s)

theorem isNameChar_of_predefined (hname : (name, c) ∈ predefined) :
    (∀ d ∈ name.toList, isNameChar d = true) ∧ referenced? name.toList = some c := by
  simp only [predefined, List.mem_cons, Prod.mk.injEq, List.not_mem_nil, or_false] at hname
  rcases hname with ⟨rfl, rfl⟩ | ⟨rfl, rfl⟩ | ⟨rfl, rfl⟩ | ⟨rfl, rfl⟩ | ⟨rfl, rfl⟩
  all_goals exact ⟨by simp [isNameChar], by decide +kernel⟩

theorem decode?_bare (hnot : beginsReference rest = false) : decode? ('&' :: rest) = none := by
  rw [decode?, if_pos rfl]
  split
  · rename_i after heq
    rw [beginsReference, heq] at hnot
    rw [Option.not_isSome_iff_eq_none.mp (Bool.eq_false_iff.mp hnot), Option.bind_none]
  · rfl

theorem isPrefixOf_reference_of_bare (hnot : beginsReference rest = false)
    (hname : (name, c) ∈ predefined) : (reference name).isPrefixOf ('&' :: rest) = false := by
  obtain ⟨hchars, hc⟩ := isNameChar_of_predefined hname
  rw [Bool.eq_false_iff, Ne, List.isPrefixOf_iff_prefix]
  rintro ⟨after, hafter⟩
  rw [reference_append, List.cons.injEq] at hafter
  rw [← hafter.2, beginsReference, List.takeWhile_append_of_pos hchars,
    List.dropWhile_append_of_pos hchars] at hnot
  simp [isNameChar, hc] at hnot

theorem Stands.eq_of_decode? (h : Stands raw s) (hdecoded : decode? raw = some t) : t = s := by
  induction h generalizing t with
  | nil =>
      rw [decode?] at hdecoded
      exact (Option.some.inj hdecoded).symm
  | plain hc _ ih =>
      rw [decode?, if_neg hc, Option.map_eq_some_iff] at hdecoded
      obtain ⟨t, ht, rfl⟩ := hdecoded
      rw [ih ht]
  | bare hnot _ _ =>
      rw [decode?_bare hnot] at hdecoded
      cases hdecoded
  | reference hname _ ih =>
      obtain ⟨hchars, hc⟩ := isNameChar_of_predefined hname
      rw [reference_append] at hdecoded
      rw [← List.cons_append, decode?_reference hchars hc, Option.map_eq_some_iff] at hdecoded
      obtain ⟨t, ht, rfl⟩ := hdecoded
      rw [ih ht]

theorem Stands.decodeNames_eq (h : Stands raw s) : decodeNames predefined raw = s := by
  induction h with
  | nil => rw [decodeNames]
  | plain hc _ ih =>
      rw [decodeNames_cons fun entry _ => isPrefixOf_reference_of_ne hc _ _, ih]
  | bare hnot _ ih =>
      rw [decodeNames_cons fun entry hentry => isPrefixOf_reference_of_bare hnot hentry, ih]
  | reference hname _ ih => rw [decodeNames_predefined hname, ih]

/-- A text is read as what it stands for, in whichever of the two ways. -/
theorem Stands.decodeText_eq (h : Stands raw s) : decodeText raw = s := by
  rw [decodeText]
  cases hdecoded : decode? raw with
  | none => exact (decodeLenient_eq raw).trans h.decodeNames_eq
  | some t => exact h.eq_of_decode? hdecoded

end Markup

end LiveMarkup
