import LiveMarkup.Proofs.Markup.Escaped
import Mathlib.Data.List.DropRight

/-!
Tags and comments as they are written are copied by `protect` and are one token each, and the attributes
of a start tag are the ones it was written with.
-/

namespace LiveMarkup.Markup

open Html

variable {s p q v body rest : List Char} {c : Char} {place : Nat} {tag name : String}
  {attributes : List Attribute}

/-! ### The end of a tag -/

/-- The search for the end of a tag gets through these characters. -/
def Passes (p : List Char) : Prop :=
  ∀ rest, splitTag? none (p ++ rest) =
    (splitTag? none rest).map fun (tag, after) => (p ++ tag, after)

theorem passes_nil : Passes [] := by
  intro rest
  simp

theorem Passes.append (hp : Passes p) (hq : Passes q) : Passes (p ++ q) := by
  intro rest
  rw [List.append_assoc, hp, hq, Option.map_map]
  congr 1
  funext split
  simp

theorem passes_plain (hp : ∀ c ∈ p, c ≠ '>' ∧ c ≠ '"' ∧ c ≠ '\'') : Passes p := by
  induction p with
  | nil => exact passes_nil
  | cons c p ih =>
      rw [List.forall_mem_cons] at hp
      obtain ⟨⟨hgt, hquote, happos⟩, hp⟩ := hp
      intro rest
      have hopened : ¬ (c = '"' ∨ c = '\'') := by simp [hquote, happos]
      rw [List.cons_append, splitTag?, if_neg hgt]
      simp only [if_neg hopened]
      rw [ih hp, Option.map_map]
      rfl

theorem splitTag?_quoted (hv : ∀ c ∈ v, c ≠ '"') (rest : List Char) :
    splitTag? (some '"') (v ++ '"' :: rest) =
      (splitTag? none rest).map fun (tag, after) => (v ++ '"' :: tag, after) := by
  induction v with
  | nil => simp [splitTag?]
  | cons c v ih =>
      rw [List.forall_mem_cons] at hv
      rw [List.cons_append, splitTag?]
      simp only [if_neg hv.1]
      rw [ih hv.2, Option.map_map]
      rfl

/-- No `>` in quotes ends a tag. -/
theorem passes_quoted (hv : ∀ c ∈ v, c ≠ '"') : Passes ('"' :: v ++ ['"']) := by
  intro rest
  rw [List.cons_append, List.cons_append, List.append_assoc, List.singleton_append, splitTag?,
    if_neg (by decide)]
  simp only [true_or, if_true]
  rw [splitTag?_quoted hv, Option.map_map]
  congr 1
  funext split
  simp

theorem Passes.split (h : Passes p) (rest : List Char) :
    splitTag? none (p ++ '>' :: rest) = some (p, rest) := by
  rw [h, splitTag?, if_pos rfl, Option.map_some]
  simp

/-! ### Attributes as they are written -/

/-- A character of names of attributes. -/
def isAttributeChar (c : Char) : Bool :=
  !isTagBlank c && c ≠ '"' && c ≠ '\'' && c ≠ '=' && c ≠ '/' && c ≠ '<' && c ≠ '>'

theorem isAttributeChar_iff : isAttributeChar c = true ↔ isTagBlank c = false ∧ c ≠ '"' ∧
    c ≠ '\'' ∧ c ≠ '=' ∧ c ≠ '/' ∧ c ≠ '<' ∧ c ≠ '>' := by
  simp [isAttributeChar, and_assoc]

def IsAttributeName (name : String) : Prop :=
  name ≠ "" ∧ name.toList.all isAttributeChar = true

theorem IsAttributeName.isAttributeChar (h : IsAttributeName name) (hc : c ∈ name.toList) :
    isAttributeChar c = true :=
  List.all_eq_true.mp h.2 c hc

theorem IsAttributeName.exists_cons (h : IsAttributeName name) :
    ∃ c rest, name.toList = c :: rest := by
  cases hname : name.toList with
  | nil => exact absurd (String.toList_eq_nil_iff.mp hname) h.1
  | cons c rest => exact ⟨c, rest, rfl⟩

/-- The characters that stand for an attribute. -/
theorem toList_attributeText (a : Attribute) : (attributeText a).toList =
    ' ' :: a.name.toList ++
      if a.value = "" then [] else '=' :: '"' :: a.value.toList.flatMap (escapeChar true) ++ ['"'] := by
  by_cases hvalue : a.value = ""
  · simp [attributeText, hvalue]
  · simp [attributeText, escapeValue, hvalue]

def written (attributes : List Attribute) : List Char :=
  attributes.flatMap fun a => (attributeText a).toList

theorem written_cons (a : Attribute) (attributes : List Attribute) :
    written (a :: attributes) = ' ' :: a.name.toList ++
      (if a.value = "" then [] else '=' :: '"' :: a.value.toList.flatMap (escapeChar true) ++ ['"']) ++
        written attributes := by
  rw [written, List.flatMap_cons, toList_attributeText]
  rfl

theorem toList_join_attributeText (attributes : List Attribute) :
    (String.join (attributes.map attributeText)).toList = written attributes := by
  rw [String.toList_join, List.flatMap_map]
  rfl

theorem passes_written (h : ∀ a ∈ attributes, IsAttributeName a.name) :
    Passes (written attributes) := by
  induction attributes with
  | nil => exact passes_nil
  | cons a attributes ih =>
      rw [List.forall_mem_cons] at h
      have hname : Passes (' ' :: a.name.toList) := by
        refine passes_plain fun c hc => ?_
        rcases List.mem_cons.mp hc with rfl | hc
        · decide
        · obtain ⟨-, hquote, happos, -, -, -, hgt⟩ := isAttributeChar_iff.mp (h.1.isAttributeChar hc)
          exact ⟨hgt, hquote, happos⟩
      rw [written_cons]
      refine Passes.append (hname.append ?_) (ih h.2)
      by_cases hvalue : a.value = ""
      · rw [if_pos hvalue]
        exact passes_nil
      · rw [if_neg hvalue]
        have hequals : Passes ['='] := passes_plain (by simp)
        exact hequals.append (passes_quoted fun c hc => (mem_escape hc).2.2 rfl)

/-- Attributes that follow begin with a blank. -/
theorem dropWhile_written (h : ∀ a ∈ attributes, IsAttributeName a.name) :
    (written attributes).takeWhile (fun c => !endsName c) = [] ∧
      ((written attributes).dropWhile isTagBlank).head? ≠ some '=' := by
  cases attributes with
  | nil => simp [written]
  | cons a attributes =>
      obtain ⟨c, rest, hname⟩ := (h a List.mem_cons_self).exists_cons
      have hc := isAttributeChar_iff.mp
        ((h a List.mem_cons_self).isAttributeChar (c := c) (by simp [hname]))
      rw [written_cons, hname]
      simp [endsName, isTagBlank.eq_def ' ', hc.1, hc.2.2.2.1]

section Step

variable {n t after : List Char} (hname : c :: n = name.toList) (hchars : IsAttributeName name)
  (hs : s.dropWhile isTagBlank = c :: n ++ t) (ht : t.takeWhile (fun c => !endsName c) = [])

include hname hchars ht

/-- A name goes up to what ends it. -/
theorem span_name : (n ++ t).takeWhile (fun c => !endsName c) = n ∧
    (n ++ t).dropWhile (fun c => !endsName c) = t := by
  have hn : ∀ d ∈ n, (!endsName d) = true := fun d hd => by
    obtain ⟨hblank, -, -, hequals, -⟩ :=
      isAttributeChar_iff.mp (hchars.isAttributeChar (by rw [← hname]; exact List.mem_cons_of_mem c hd))
    simp [endsName, hblank, hequals]
  have hsplit := List.takeWhile_append_dropWhile (p := fun c => !endsName c) (l := t)
  rw [ht, List.nil_append] at hsplit
  rw [List.takeWhile_append_of_pos hn, List.dropWhile_append_of_pos hn, ht, hsplit, List.append_nil]
  exact ⟨rfl, rfl⟩

include hs

theorem attributeStep_value (hafter : t.dropWhile isTagBlank = '=' :: after) :
    attributeStep s = valueStep name.toList after := by
  obtain ⟨htake, hdrop⟩ := span_name hname hchars ht
  rw [attributeStep, hs, List.cons_append]
  dsimp only
  rw [htake, hdrop, hafter, hname]
  split
  · rename_i heq
    rw [(List.cons.inj heq).2]
  · rename_i hnot
    exact absurd rfl (hnot after)

theorem attributeStep_bare (hafter : (t.dropWhile isTagBlank).head? ≠ some '=') :
    attributeStep s = .item name.toList [] (t.dropWhile isTagBlank) := by
  obtain ⟨htake, hdrop⟩ := span_name hname hchars ht
  rw [attributeStep, hs, List.cons_append]
  dsimp only
  rw [htake, hdrop, ← hname]
  split
  · rename_i heq
    rw [heq] at hafter
    exact absurd rfl hafter
  · rfl

end Step

theorem cut_singleton {m : Char} (hv : m ∉ v) (rest : List Char) :
    Text.cut [m] (v ++ m :: rest) = some (v, rest) := by
  induction v with
  | nil => simp [Text.cut]
  | cons c v ih =>
      rw [List.mem_cons, not_or] at hv
      rw [List.cons_append, Text.cut, isPrefixOf_of_ne hv.1, if_neg Bool.false_ne_true, ih hv.2]
      rfl

theorem valueStep_quoted {n : List Char} (hv : '"' ∉ v) (rest : List Char) :
    valueStep n ('"' :: v ++ '"' :: rest) = .item n v rest := by
  rw [valueStep, List.cons_append, List.dropWhile_cons_of_neg (by decide)]
  dsimp only
  rw [if_pos (Or.inl rfl), cut_singleton hv]

/-- The step over an attribute leaves the attributes behind it, perhaps without the first blank. -/
theorem attributeStep_written {a : Attribute}
    (h : ∀ b ∈ a :: attributes, IsAttributeName b.name)
    (hs : s.dropWhile isTagBlank = (written (a :: attributes)).dropWhile isTagBlank) :
    ∃ v rest, attributeStep s = .item a.name.toList v rest ∧ decodeValue v = a.value.toList ∧
      rest.dropWhile isTagBlank = (written attributes).dropWhile isTagBlank := by
  have hname := h a List.mem_cons_self
  obtain ⟨hends, hequals⟩ := dropWhile_written fun b hb => h b (List.mem_cons_of_mem a hb)
  obtain ⟨c, n, hcons⟩ := hname.exists_cons
  have hblank : isTagBlank c = false :=
    (isAttributeChar_iff.mp (hname.isAttributeChar (c := c) (by simp [hcons]))).1
  rw [written_cons, List.cons_append, List.cons_append, List.dropWhile_cons_of_pos (by decide),
    List.append_assoc, hcons, List.cons_append, List.dropWhile_cons_of_neg (by simp [hblank])] at hs
  by_cases hvalue : a.value = ""
  · rw [if_pos hvalue, List.nil_append] at hs
    refine ⟨[], (written attributes).dropWhile isTagBlank, ?_, ?_, ?_⟩
    · exact attributeStep_bare hcons.symm hname hs hends hequals
    · rw [hvalue]
      exact decodeValue_escape []
    · exact List.dropWhile_idempotent ..
  · rw [if_neg hvalue] at hs
    refine ⟨a.value.toList.flatMap (escapeChar true), written attributes, ?_, decodeValue_escape _,
      rfl⟩
    rw [List.append_assoc, List.cons_append, List.cons_append, List.singleton_append] at hs
    rw [attributeStep_value hcons.symm hname hs (by simp [endsName])
      (List.dropWhile_cons_of_neg (by decide))]
    exact valueStep_quoted (fun hmem => (mem_escape hmem).2.2 rfl rfl) _

/-- The attributes of a tag are the ones it was written with. -/
theorem readAttributes_written : ∀ {attributes : List Attribute} {seen : List (List Char)}
    {s : List Char}, (∀ a ∈ attributes, IsAttributeName a.name) →
      (attributes.map (·.name)).Nodup → (∀ a ∈ attributes, a.name.toList ∉ seen) →
      s.dropWhile isTagBlank = (written attributes).dropWhile isTagBlank →
      readAttributes seen s = ⟨attributes, true⟩
  | [], seen, s, _, _, _, hs => by
      have hdone : attributeStep s = .done := by
        rw [attributeStep, hs]
        rfl
      rw [readAttributes]
      split <;> simp_all
  | a :: attributes, seen, s, hnames, hnodup, hseen, hs => by
      obtain ⟨v, rest, hstep, hvalue, hrest⟩ := attributeStep_written hnames hs
      rw [List.map_cons, List.nodup_cons] at hnodup
      rw [List.forall_mem_cons] at hnames hseen
      have hmore : readAttributes (a.name.toList :: seen) rest = ⟨attributes, true⟩ := by
        refine readAttributes_written hnames.2 hnodup.2 (fun b hb hmem => ?_) hrest
        rcases List.mem_cons.mp hmem with heq | hmem
        · exact hnodup.1 (List.mem_map.mpr ⟨b, hb, String.toList_inj.mp heq⟩)
        · exact hseen.2 b hb hmem
      rw [readAttributes]
      split
      · rename_i h
        rw [hstep] at h
        cases h
      · rename_i h
        rw [hstep] at h
        cases h
      · rename_i name v' rest' h
        rw [hstep, AttributeStep.item.injEq] at h
        obtain ⟨rfl, rfl, rfl⟩ := h
        rw [if_neg (by simpa using hseen.1), hmore, hvalue, String.ofList_toList, String.ofList_toList]

/-! ### Tags -/

/-- A character of tags behind the first one. All characters beyond ASCII count. -/
def isTagChar (c : Char) : Bool :=
  c.isLower || c.isDigit || c = '-' || c = '_' || c = '.' || !Text.isAscii c

def IsTag (tag : String) : Prop :=
  ∃ c rest, tag.toList = c :: rest ∧ c.isLower = true ∧ rest.all isTagChar = true

theorem isTagChar_of_isLower (h : c.isLower = true) : isTagChar c = true := by
  simp [isTagChar, h]

theorem IsTag.isTagChar (h : IsTag tag) (hc : c ∈ tag.toList) : isTagChar c = true := by
  obtain ⟨first, rest, htag, hfirst, hrest⟩ := h
  rw [htag, List.mem_cons] at hc
  rcases hc with rfl | hc
  · exact isTagChar_of_isLower hfirst
  · exact List.all_eq_true.mp hrest c hc

theorem ne_of_isTagChar (h : isTagChar c = true) {d : Char} (hd : isTagChar d = false) : c ≠ d := by
  rintro rfl
  rw [h] at hd
  cases hd

theorem isTagBlank_of_isTagChar (h : isTagChar c = true) : isTagBlank c = false := by
  simp [isTagBlank, ne_of_isTagChar h (d := ' ') (by decide),
    ne_of_isTagChar h (d := '\t') (by decide), ne_of_isTagChar h (d := '\r') (by decide),
    ne_of_isTagChar h (d := '\n') (by decide)]

theorem toLower_of_isTagChar (h : isTagChar c = true) : c.toLower = c := by
  refine dif_neg ?_
  rintro ⟨hlow, hhigh⟩
  have hlow' : 65 ≤ c.val.toNat := UInt32.le_iff_toNat_le.mp hlow
  have hhigh' : c.val.toNat ≤ 90 := UInt32.le_iff_toNat_le.mp hhigh
  simp only [Markup.isTagChar, Char.isDigit, Text.isAscii, Bool.or_eq_true,
    Bool.and_eq_true, decide_eq_true_eq, Bool.not_eq_true', decide_eq_false_iff_not] at h
  rcases h with ((((hlower | ⟨-, hdigit⟩) | rfl) | rfl) | rfl) | hascii
  · have hlower' : 97 ≤ c.val.toNat :=
      UInt32.le_iff_toNat_le.mp (of_decide_eq_true (Bool.and_eq_true_iff.mp hlower).1)
    omega
  · have hdigit' : c.val.toNat ≤ 57 := UInt32.le_iff_toNat_le.mp hdigit
    omega
  · exact absurd hlow' (by decide)
  · exact absurd hhigh' (by decide)
  · exact absurd hlow' (by decide)
  · change ¬ c.val.toNat < 128 at hascii
    omega

theorem IsTag.tagName (h : IsTag tag) : tagName tag.toList = tag := by
  rw [Markup.tagName, String.ofList_toList, Text.asciiLower]
  apply String.toList_inj.mp
  rw [String.toList_map]
  conv_rhs => rw [← List.map_id tag.toList]
  exact List.map_congr_left fun c hc => toLower_of_isTagChar (h.isTagChar hc)

end LiveMarkup.Markup
