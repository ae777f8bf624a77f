import LiveMarkup.Proofs.Markup.Parsed
import LiveMarkup.Proofs.Markup.Seams
import Mathlib

/-!
# Recovery at end tags

An end tag closes the innermost open element of its name with all that is open inside it, and does
nothing without one. Main result: markup that is accepted reads the same when the end tags it lacks are
written behind it, and when end tags that close nothing are written between its tokens
(`parse_recovers`).
-/

namespace LiveMarkup

namespace Markup

variable {s t rest name : List Char} {o : Open} {current : Frame} {outer : List Frame} {tag : String}
  {tokens : List Token} {m : String}

/-! ### Open elements -/

namespace Open

/-- The tags of the open elements, innermost first. -/
def tags (o : Open) : List String :=
  (o.current :: o.outer).filterMap (·.content.tag?)

/-- The end tags that close what is open. -/
def endTags (o : Open) : String :=
  String.join (o.tags.map fun tag => "</" ++ tag ++ ">")

theorem tags_cons (current frame : Frame) (outer : List Frame) :
    tags ⟨current, frame :: outer⟩ = current.content.tag?.toList ++ tags ⟨frame, outer⟩ := by
  cases htag : current.content.tag? <;> simp [tags, htag]

theorem after_append (o : Open) (tokens more : List Token) :
    o.after (tokens ++ more) = (o.after tokens).after more :=
  List.foldl_append

theorem after_cons (o : Open) (token : Token) (tokens : List Token) :
    o.after (token :: tokens) = (o.take token).after tokens :=
  rfl

/-- Closing elements leaves the tree: what is open at the end is closed there anyway. -/
theorem tree_close (o : Open) (tag : String) : (o.close tag).tree = o.tree := by
  obtain ⟨current, outer⟩ := o
  rw [close]
  induction outer generalizing current with
  | nil => rfl
  | cons frame outer ih =>
      rw [closeTo?]
      split
      · rfl
      · have hclosed := ih { frame with children := current.tree :: frame.children }
        cases hclose : closeTo? tag { frame with children := current.tree :: frame.children } outer with
        | none => rfl
        | some o =>
            rw [hclose] at hclosed
            exact hclosed

theorem close_of_not_mem (h : tag ∉ o.tags) : o.close tag = o := by
  have hnone : closeTo? tag o.current o.outer = none := by
    obtain ⟨current, outer⟩ := o
    induction outer generalizing current with
    | nil => rfl
    | cons frame outer ih =>
        rw [tags_cons, List.mem_append, not_or, Option.mem_toList] at h
        rw [closeTo?, if_neg h.1]
        exact ih _ h.2
  rw [close, hnone, Option.getD_none]

theorem tags_closeTo? {closed : Open} (h : closeTo? tag current outer = some closed) :
    closed.tags ⊆ tags ⟨current, outer⟩ := by
  induction outer generalizing current with
  | nil => cases h
  | cons frame outer ih =>
      rw [tags_cons]
      apply List.Subset.trans _ (List.subset_append_right _ _)
      rw [closeTo?] at h
      split at h
      · cases h
        exact List.Subset.refl _
      · have hclosed := ih h
        exact hclosed

theorem tags_close (o : Open) (tag : String) : (o.close tag).tags ⊆ o.tags := by
  rw [close]
  cases hclose : closeTo? tag o.current o.outer with
  | none => exact List.Subset.refl _
  | some closed => exact tags_closeTo? hclose

/-- What is open behind a token was open before it or is opened by it. -/
theorem mem_tags_take {token : Token} (h : tag ∈ (o.take token).tags) :
    tag ∈ o.tags ∨ ∃ name body empty, token = .start name body empty ∧ tag = tagName name := by
  cases token with
  | start name body empty =>
      rw [take] at h
      split at h
      · exact .inl h
      · rw [enter, tags_cons, List.mem_append, Option.mem_toList] at h
        obtain htag | hmem := h
        · cases htag
          exact .inr ⟨name, body, empty, rfl, rfl⟩
        · exact .inl hmem
  | close name => exact .inl (tags_close _ _ h)
  | text raw =>
      rw [take] at h
      split at h <;> exact .inl h
  | verbatim s | comment s | aside => exact .inl h

theorem mem_tags_after (h : tag ∈ (o.after tokens).tags) :
    tag ∈ o.tags ∨ ∃ name body empty, .start name body empty ∈ tokens ∧ tag = tagName name := by
  induction tokens generalizing o with
  | nil => exact .inl h
  | cons token tokens ih =>
      obtain hmem | ⟨name, body, empty, hmem, rfl⟩ := ih h
      · obtain hmem | ⟨name, body, empty, rfl, rfl⟩ := mem_tags_take hmem
        · exact .inl hmem
        · exact .inr ⟨name, body, empty, List.mem_cons_self, rfl⟩
      · exact .inr ⟨name, body, empty, List.mem_cons_of_mem _ hmem, rfl⟩

/-- The end tags of all open elements, innermost first, leave no element open. -/
theorem tags_after_close (h : Closes o.current o.outer)
    (hnames : ∀ tag ∈ o.tags, tagName tag.toList = tag) :
    (o.after (o.tags.map fun tag => .close tag.toList)).tags = [] := by
  obtain ⟨current, outer⟩ := o
  induction outer generalizing current with
  | nil =>
      have hroot : current.content.tag? = none := by rw [h.1]; rfl
      simp [tags, hroot, after]
  | cons frame outer ih =>
      obtain ⟨tag, htag⟩ : ∃ tag, current.content.tag? = some tag := by
        have hopens : Opens current.content := h.1
        cases hcontent : current.content with
        | element tag attributes => exact ⟨tag, rfl⟩
        | fragment | text s | comment s =>
            rw [hcontent] at hopens
            exact hopens.elim
      rw [tags_cons, htag] at hnames ⊢
      have hclose : close ⟨current, frame :: outer⟩ (tagName tag.toList) =
          ⟨{ frame with children := current.tree :: frame.children }, outer⟩ := by
        rw [hnames tag (by simp), close, closeTo?, if_pos htag, Option.getD_some]
      have hclosed := close_closes h (tagName tag.toList)
      rw [hclose] at hclosed
      have hrest := ih _ hclosed fun tag hmem => hnames tag (List.mem_append_right _ hmem)
      rw [Option.toList_some, List.singleton_append, List.map_cons, after, List.foldl_cons, take,
        hclose]
      exact hrest

theorem tree_after_close (o : Open) (tags : List String) :
    (o.after (tags.map fun tag => .close tag.toList)).tree = o.tree := by
  induction tags generalizing o with
  | nil => rfl
  | cons tag tags ih =>
      rw [List.map_cons, after, List.foldl_cons]
      exact (ih _).trans (tree_close o _)

end Open

/-! ### Names in tags -/

/-- Letters and digits of ASCII and hyphens. -/
def IsPlainName (name : List Char) : Prop :=
  ∀ c ∈ name, c.isAlphanum = true ∨ c = '-'

theorem IsPlainName.ne (h : IsPlainName name) {c d : Char} (hc : c ∈ name)
    (hd : d.isAlphanum = false ∧ d ≠ '-') : c ≠ d := by
  rintro rfl
  obtain halphanum | hhyphen := h c hc
  · rw [hd.1] at halphanum
    cases halphanum
  · exact hd.2 hhyphen

theorem isPlainName_tagName (h : IsPlainName name) : IsPlainName (tagName name).toList := by
  intro c hc
  rw [tagName, Text.asciiLower, String.toList_map, String.toList_ofList] at hc
  obtain ⟨d, hd, rfl⟩ := List.mem_map.mp hc
  by_cases hupper : d.isUpper = true
  · left
    have halpha : d.isAlpha = true := by simp [Char.isAlpha, hupper]
    simp [Char.isAlphanum, Char.isAlpha_toLower_eq_isAlpha, halpha]
  · rw [Char.toLower_eq_of_not_isUpper hupper]
    exact h d hd

theorem tagName_tagName (name : List Char) : tagName (tagName name).toList = tagName name := by
  apply String.toList_inj.mp
  simp [tagName, Text.asciiLower, String.toList_map, Char.toLower_toLower_eq_toLower]

/-- The end tag of a name. -/
def endTag (name : List Char) : List Char :=
  '<' :: '/' :: name ++ ['>']

theorem isLexeme_endTag (h : IsPlainName name) : IsLexeme (endTag name) (.close name) := by
  have hpasses : Passes name := passes_plain fun c hc =>
    ⟨h.ne hc (by decide), h.ne hc (by decide), h.ne hc (by decide)⟩
  have hname : closingName name = name := by
    apply closingName_of_nonblank
    intro c hc
    simp [isTagBlank, h.ne hc (d := ' ') (by decide), h.ne hc (d := '\t') (by decide),
      h.ne hc (d := '\r') (by decide), h.ne hc (d := '\n') (by decide)]
  apply isLexeme_markup (p := '/' :: name ++ ['>'])
  intro rest
  have hclose := markup?_close hpasses rest
  rw [hname] at hclose
  simpa using hclose

theorem brace_not_mem_endTag (h : IsPlainName name) : '\x7b' ∉ endTag name := by
  have hname : '\x7b' ∉ name := fun hmem => h.ne hmem (d := '\x7b') (by decide) rfl
  simp [endTag, hname]

theorem brace_not_mem_endTags {names : List (List Char)} (h : ∀ name ∈ names, IsPlainName name) :
    '\x7b' ∉ names.flatMap endTag := by
  rw [List.mem_flatMap]
  rintro ⟨name, hname, hmem⟩
  exact brace_not_mem_endTag (h name hname) hmem

theorem Open.toList_endTags (o : Open) :
    o.endTags.toList = (o.tags.map String.toList).flatMap endTag := by
  rw [Open.endTags, String.toList_join, List.flatMap_map, List.flatMap_map]
  apply List.flatMap_congr
  simp [endTag]

theorem lexes_endTags {names : List (List Char)} (h : ∀ name ∈ names, IsPlainName name) :
    Lexes (names.flatMap endTag) (names.map .close) ∧ Stops (names.flatMap endTag) := by
  induction names with
  | nil => exact ⟨.nil, fun c hc => by cases hc⟩
  | cons name names ih =>
      rw [List.forall_mem_cons] at h
      have htag : Token.isText (.close name) = true → Stops (names.flatMap endTag) := nofun
      exact ⟨.cons (isLexeme_endTag h.1) htag (ih h.2).1, stops_lt _⟩

/-! ### Spans -/

/-- A character that is no brace stands between the spans of two texts. -/
theorem occursIn_span_append {c : Char} (hc : c ≠ '\x7b') (hs : Text.occursIn spanOpen s = false)
    (ht : Text.occursIn spanOpen t = false) : Text.occursIn spanOpen (s ++ c :: t) = false := by
  induction s with
  | nil =>
      rw [List.nil_append, Text.occursIn, ht, Bool.or_false]
      exact isPrefixOf_of_ne (Ne.symm hc) _ _
  | cons d s ih =>
      rw [Text.occursIn, Bool.or_eq_false_iff] at hs
      rw [List.cons_append, Text.occursIn, ih hs.2, Bool.or_false]
      cases s with
      | nil => simp [spanOpen, List.isPrefixOf, Ne.symm hc]
      | cons e s => simpa [spanOpen, List.isPrefixOf] using hs.1

theorem occursIn_span_of_not_mem (h : '\x7b' ∉ s) : Text.occursIn spanOpen s = false := by
  have happend : Text.occursIn spanOpen (s ++ []) = Text.occursIn spanOpen [] :=
    occursIn_append_of_not_mem h
  rwa [List.append_nil] at happend

theorem occursIn_span_append_stops (hs : Text.occursIn spanOpen s = false) (hstops : Stops t)
    (ht : '\x7b' ∉ t) : Text.occursIn spanOpen (s ++ t) = false := by
  cases t with
  | nil => rwa [List.append_nil]
  | cons c t =>
      obtain rfl := hstops c rfl
      rw [List.mem_cons, not_or] at ht
      exact occursIn_span_append (by decide) hs (occursIn_span_of_not_mem ht.2)

theorem occursIn_span_of_append (h : Text.occursIn spanOpen (s ++ t) = false) :
    Text.occursIn spanOpen s = false ∧ Text.occursIn spanOpen t = false := by
  induction s with
  | nil => exact ⟨rfl, h⟩
  | cons c s ih =>
      rw [List.cons_append, Text.occursIn, Bool.or_eq_false_iff] at h
      obtain ⟨hs, ht⟩ := ih h.2
      refine ⟨?_, ht⟩
      rw [Text.occursIn, hs, Bool.or_false]
      rw [Bool.eq_false_iff, Ne, List.isPrefixOf_iff_prefix] at h ⊢
      exact fun hfront => h.1 (hfront.trans (List.prefix_append (c :: s) t))

theorem protect_of_no_span (h : Text.occursIn spanOpen s = false) : protect s = s := by
  induction hlength : s.length using Nat.strong_induction_on generalizing s with
  | h length ih =>
      cases s with
      | nil => rw [protect]
      | cons c s =>
          obtain hall | ⟨p, after, hs, hprotect⟩ | ⟨body, after, hs, -⟩ | hchar := protect_cases c s
          · exact hall
          · have hafter : Text.occursIn spanOpen after = false := by
              rw [hs, List.append_cons] at h
              exact (occursIn_span_of_append h).2
            rw [hprotect, ih after.length _ hafter rfl, hs]
            rw [← hlength, hs]
            simp
            omega
          · rw [hs] at h
            simp [Text.occursIn, spanOpen, List.isPrefixOf] at h
          · rw [Text.occursIn, Bool.or_eq_false_iff] at h
            rw [hchar, ih s.length (by rw [← hlength]; simp) h.2 rfl]

/-! ### Accepted markup -/

/-- The tokens of markup, each after its place. -/
def placed (markup : String) : List (Nat × Token) :=
  (lex 0 (dropByteOrderMark (protect markup.toList))).tokens

/-- The elements that are open behind some tokens. -/
def opened (tokens : List (Nat × Token)) : Open :=
  Open.start.after (tokens.map Prod.snd)

/-- `a` ends behind the tokens `front` of `a ++ b`, where another token begins. -/
structure Seam (a b : String) (front : List (Nat × Token)) : Prop where
  nonempty : a ≠ ""
  begins : ∃ token back,
    placed (a ++ b) = front ++ (byteLength (dropByteOrderMark a.toList), token) :: back

theorem after_closes (h : Closes o.current o.outer) (tokens : List Token) :
    Closes (o.after tokens).current (o.after tokens).outer := by
  induction tokens generalizing o with
  | nil => exact h
  | cons token tokens ih => exact ih (take_closes h token)

theorem opened_closes (tokens : List (Nat × Token)) :
    Closes (opened tokens).current (opened tokens).outer :=
  after_closes (o := Open.start) ⟨rfl, List.forall_mem_nil _⟩ _

theorem opened_append (front back : List (Nat × Token)) :
    opened (front ++ back) = (opened front).after (back.map Prod.snd) := by
  rw [opened, List.map_append, Open.after_append]
  rfl

theorem build_of_complete {placed : List (Nat × Token)} (h : ∀ entry ∈ placed, entry.2.IsComplete) :
    build none o placed = ⟨(o.after (placed.map Prod.snd)).tree, none, none⟩ := by
  induction placed generalizing o with
  | nil => rfl
  | cons entry placed ih =>
      rw [List.forall_mem_cons] at h
      rw [build_cons h.1, ih h.2]
      rfl

theorem read_of_lexes (hspan : Text.occursIn spanOpen m.toList = false)
    (hlexes : Lexes (dropByteOrderMark m.toList) tokens)
    (hcomplete : ∀ token ∈ tokens, token.IsComplete) :
    read m = ⟨(Open.start.after tokens).tree, none, none⟩ ∧
      opened (placed m) = Open.start.after tokens := by
  obtain ⟨hbroken, htokens⟩ := hlexes.lex 0
  have hall : ∀ entry ∈ (lex 0 (dropByteOrderMark m.toList)).tokens, entry.2.IsComplete := by
    intro entry hentry
    apply hcomplete
    rw [← htokens]
    exact List.mem_map_of_mem hentry
  rw [read, opened, placed, protect_of_no_span hspan, hbroken, build_of_complete hall, htokens]
  exact ⟨rfl, rfl⟩

theorem lexes_of_read (hspan : Text.occursIn spanOpen m.toList = false)
    (herror : (read m).error = none) :
    lex 0 (dropByteOrderMark m.toList) = ⟨placed m, none⟩ ∧
      (∀ entry ∈ placed m, entry.2.IsComplete) ∧ read m = ⟨(opened (placed m)).tree, none, none⟩ := by
  rw [read] at herror
  obtain ⟨hbroken, hcomplete, hbuild⟩ := build_eq_of_error herror
  refine ⟨?_, hcomplete, hbuild⟩
  rw [placed, ← hbroken, protect_of_no_span hspan]

theorem dropByteOrderMark_of_ne {c : Char} (hc : c ≠ '\ufeff') (s : List Char) :
    dropByteOrderMark (c :: s) = c :: s := by
  unfold dropByteOrderMark
  split
  · rename_i heq
    exact absurd (List.cons.inj heq).1 hc
  · rfl

theorem dropByteOrderMark_append (h : s ≠ [] ∨ Stops t) :
    dropByteOrderMark (s ++ t) = dropByteOrderMark s ++ t := by
  cases s with
  | nil =>
      have hstops : Stops t := h.resolve_left fun hne => hne rfl
      cases t with
      | nil => rfl
      | cons c t =>
          obtain rfl := hstops c rfl
          exact dropByteOrderMark_of_ne (by decide) t
  | cons c s =>
      by_cases hc : c = '\ufeff'
      · rw [hc]
        rfl
      · rw [List.cons_append, dropByteOrderMark_of_ne hc, dropByteOrderMark_of_ne hc, List.cons_append]

theorem plain_tags_opened
    (hnames : ∀ place name body empty, (place, .start name body empty) ∈ placed m → IsPlainName name) :
    ∀ tag ∈ (opened (placed m)).tags, IsPlainName tag.toList ∧ tagName tag.toList = tag := by
  intro tag htag
  obtain hstart | ⟨name, body, empty, hmem, rfl⟩ := Open.mem_tags_after htag
  · cases hstart
  · obtain ⟨⟨place, _⟩, hentry, rfl⟩ := List.mem_map.mp hmem
    exact ⟨isPlainName_tagName (hnames place name body empty hentry), tagName_tagName name⟩

/-- Behind the end tags of what is open, the tree is the same and nothing is open. -/
theorem read_append_endTags (hspan : Text.occursIn spanOpen m.toList = false)
    (herror : (read m).error = none)
    (hnames : ∀ place name body empty, (place, .start name body empty) ∈ placed m → IsPlainName name) :
    read (m ++ (opened (placed m)).endTags) = read m ∧
      (opened (placed (m ++ (opened (placed m)).endTags))).tags = [] := by
  obtain ⟨hlex, hcomplete, hread⟩ := lexes_of_read hspan herror
  have hlexes := lexes_of_lex hlex
  have htags := plain_tags_opened hnames
  generalize ho : opened (placed m) = o at *
  have hplain : ∀ name ∈ o.tags.map String.toList, IsPlainName name :=
    List.forall_mem_map.mpr fun tag htag => (htags tag htag).1
  obtain ⟨hclosing, hstops⟩ := lexes_endTags hplain
  have hbrace := brace_not_mem_endTags hplain
  rw [← o.toList_endTags] at hclosing hstops hbrace
  have hspan' : Text.occursIn spanOpen (m ++ o.endTags).toList = false := by
    rw [String.toList_append]
    exact occursIn_span_append_stops hspan hstops hbrace
  have hdrop : dropByteOrderMark (m ++ o.endTags).toList =
      dropByteOrderMark m.toList ++ o.endTags.toList := by
    rw [String.toList_append, dropByteOrderMark_append (.inr hstops)]
  have hall : ∀ token ∈ (placed m).map Prod.snd ++ (o.tags.map String.toList).map .close,
      token.IsComplete := by
    rw [List.forall_mem_append]
    exact ⟨List.forall_mem_map.mpr hcomplete, List.forall_mem_map.mpr fun _ _ => trivial⟩
  obtain ⟨hread', hopened⟩ := read_of_lexes hspan' (hdrop ▸ hlexes.append hclosing hstops) hall
  have hafter : Open.start.after ((placed m).map Prod.snd) = o := ho
  rw [Open.after_append, hafter, List.map_map] at hread' hopened
  rw [hread', hopened, hread]
  refine ⟨by rw [← Open.tree_after_close o o.tags]; rfl, ?_⟩
  exact Open.tags_after_close (ho ▸ opened_closes _) fun tag htag => (htags tag htag).2

theorem read_insert_endTag {a b : String} {name : List Char} {front : List (Nat × Token)}
    (hspan : Text.occursIn spanOpen (a ++ b).toList = false) (herror : (read (a ++ b)).error = none)
    (hseam : Seam a b front) (hname : IsPlainName name) (hopen : tagName name ∉ (opened front).tags) :
    read (a ++ String.ofList (endTag name) ++ b) = read (a ++ b) := by
  obtain ⟨hlex, hcomplete, hread⟩ := lexes_of_read hspan herror
  obtain ⟨token, back, hplaced⟩ := hseam.begins
  have ha : a.toList ≠ [] := fun hnil => hseam.nonempty (String.toList_eq_nil_iff.mp hnil)
  rw [String.toList_append, dropByteOrderMark_append (.inl ha), hplaced,
    ← Nat.zero_add (byteLength _)] at hlex
  obtain ⟨hfront, hback⟩ := lexes_of_seam hlex
  have htag : Token.isText (.close name) = true → Stops b.toList := nofun
  have hlexes := hfront.append (.cons (isLexeme_endTag hname) htag hback) (stops_lt _)
  have hinserted : dropByteOrderMark (a ++ String.ofList (endTag name) ++ b).toList =
      dropByteOrderMark a.toList ++ (endTag name ++ b.toList) := by
    rw [String.toList_append, String.toList_append, String.toList_ofList, List.append_assoc,
      dropByteOrderMark_append (.inl ha)]
  have hspan' : Text.occursIn spanOpen (a ++ String.ofList (endTag name) ++ b).toList = false := by
    rw [String.toList_append] at hspan
    obtain ⟨hspana, hspanb⟩ := occursIn_span_of_append hspan
    have hbrace : '\x7b' ∉ '/' :: name ++ ['>'] := fun hmem =>
      brace_not_mem_endTag hname (List.mem_cons_of_mem _ hmem)
    rw [String.toList_append, String.toList_append, String.toList_ofList, List.append_assoc]
    apply occursIn_span_append (s := a.toList) (c := '<') (by decide) hspana
    exact (occursIn_append_of_not_mem hbrace).trans hspanb
  rw [← hinserted] at hlexes
  rw [hplaced] at hcomplete hread
  have hall : ∀ t ∈ front.map Prod.snd ++ .close name :: token :: back.map Prod.snd,
      Token.IsComplete t := by
    rw [List.forall_mem_append, List.forall_mem_cons] at hcomplete ⊢
    rw [List.forall_mem_cons]
    exact ⟨List.forall_mem_map.mpr hcomplete.1, trivial, hcomplete.2.1,
      List.forall_mem_map.mpr hcomplete.2.2⟩
  have hclose : Open.take (opened front) (.close name) = opened front := Open.close_of_not_mem hopen
  have hafter : Open.start.after (front.map Prod.snd) = opened front := rfl
  rw [(read_of_lexes hspan' hlexes hall).1, hread, Open.after_append, Open.after_cons, hafter, hclose,
    opened_append, List.map_cons]

end Markup

namespace Dom

open Markup

theorem error_of_isOk {d : Dom} {m : String} (h : (d.parse m).2.isOk = true) :
    (read m).error = none := by
  rw [Dom.parse] at h
  cases herror : (read m).error with
  | none => rfl
  | some e =>
      simp only [herror] at h
      cases h

/-- **Recovery at end tags.** Accepted markup is read as the same tree when the end tags of what is open
at its end are written behind it, and when an end tag is written between two of its tokens where no
element of that name is open. -/
theorem parse_recovers {m : String} (hspan : hasSpan m = false)
    (haccepted : (Dom.empty.parse m).2.isOk = true)
    (hnames : ∀ place name body empty, (place, .start name body empty) ∈ placed m → IsPlainName name) :
    ((opened (placed (m ++ (opened (placed m)).endTags))).tags = [] ∧
      ∀ d : Dom, d.parse (m ++ (opened (placed m)).endTags) = d.parse m) ∧
    ∀ (a b x : String) (front : List (Nat × Token)), m = a ++ b → Seam a b front →
      IsPlainName x.toList → tagName x.toList ∉ (opened front).tags →
        ∀ d : Dom, d.parse (a ++ "</" ++ x ++ ">" ++ b) = d.parse m := by
  have herror := error_of_isOk haccepted
  constructor
  · obtain ⟨hread, htags⟩ := read_append_endTags hspan herror hnames
    refine ⟨htags, fun d => ?_⟩
    rw [Dom.parse, hread, Dom.parse]
  · rintro a b x front rfl hseam hname hopen d
    have htext : a ++ "</" ++ x ++ ">" ++ b = a ++ String.ofList (endTag x.toList) ++ b := by
      apply String.toList_inj.mp
      simp [endTag]
    rw [htext, Dom.parse, read_insert_endTag hspan herror hseam hname hopen, Dom.parse]

/-- An end tag in a comment, a `>` in a value, a void element and two elements that stay open. -/
def soup : String :=
  "<div>a<!-- </p> --><P t=\"x>y\">b<br>c"

theorem placed_soup : placed soup =
    [(0, .start "div".toList [] false), (5, .text ['a']), (6, .comment " </p> ".toList),
      (19, .start ['P'] " t=\"x>y\"".toList false), (30, .text ['b']),
      (31, .start "br".toList [] false), (35, .text ['c'])] := by
  decide +kernel

theorem parse_recovers_soup : hasSpan soup = false ∧ (Dom.empty.parse soup).2.isOk = true ∧
    (∀ place name body empty, (place, .start name body empty) ∈ placed soup → IsPlainName name) ∧
    (∀ d : Dom, d.parse (soup ++ "</p></div>") = d.parse soup) ∧
    ∀ d : Dom, d.parse ("<div>a" ++ "</" ++ "Br" ++ ">" ++ "<!-- </p> --><P t=\"x>y\">b<br>c") =
      d.parse soup := by
  have hspan : hasSpan soup = false := by decide +kernel
  have haccepted : (Dom.empty.parse soup).2.isOk = true := by decide +kernel
  have hnames : ∀ place name body empty, (place, .start name body empty) ∈ placed soup →
      IsPlainName name := by
    intro place name body empty h
    rw [placed_soup] at h
    simp only [List.mem_cons, Prod.mk.injEq, Token.start.injEq, reduceCtorEq, and_false, or_false,
      false_or, List.not_mem_nil] at h
    obtain ⟨-, rfl, -⟩ | ⟨-, rfl, -⟩ | ⟨-, rfl, -⟩ := h <;> simp [IsPlainName]
  have hseam : Seam "<div>a" "<!-- </p> --><P t=\"x>y\">b<br>c"
      [(0, .start "div".toList [] false), (5, .text ['a'])] :=
    ⟨by decide, _, _, placed_soup⟩
  have hname : IsPlainName "Br".toList := by simp [IsPlainName]
  have hopen : tagName "Br".toList ∉
      (opened [(0, .start "div".toList [] false), (5, .text ['a'])]).tags := by decide +kernel
  have hend : (opened (placed soup)).endTags = "</p></div>" := by decide +kernel
  obtain ⟨⟨-, hclosed⟩, hinserted⟩ := parse_recovers hspan haccepted hnames
  rw [hend] at hclosed
  exact ⟨hspan, haccepted, hnames, hclosed, hinserted _ _ "Br" _ rfl hseam hname hopen⟩

end Dom

end LiveMarkup
