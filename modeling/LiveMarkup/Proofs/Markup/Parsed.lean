import LiveMarkup.Markup.Parse

/-!
What parsing makes of markup: a fragment of elements, texts and comments, with nothing below texts and
comments and no attribute on an element twice.
-/

namespace LiveMarkup

namespace Tree

mutual

/-- A tree as parsing makes them: no markers, no fragment, nothing below texts and comments, and no
attribute twice. -/
def IsParsed : Tree → Prop
  | .node content marker below => marker = none ∧
    match content with
    | .fragment => False
    | .text _ => below = []
    | .comment _ => below = []
    | .element _ attributes => (attributes.map (·.name)).Nodup ∧ AreParsed below

def AreParsed : List Tree → Prop
  | [] => True
  | tree :: rest => IsParsed tree ∧ AreParsed rest

end

end Tree

theorem Tree.areParsed_iff {trees : List Tree} :
    Tree.AreParsed trees ↔ ∀ tree ∈ trees, tree.IsParsed := by
  induction trees with
  | nil => simp [Tree.AreParsed]
  | cons tree rest ih => rw [Tree.AreParsed, ih, List.forall_mem_cons]

namespace Markup

/-- A new attribute is none of those before it. -/
theorem readAttributes_nodup (seen : List (List Char)) (s : List Char) :
    ((readAttributes seen s).items.map (·.name)).Nodup ∧
      ∀ name ∈ seen, String.ofList name ∉ (readAttributes seen s).items.map (·.name) := by
  induction seen, s using readAttributes.induct with
  | case1 seen s h | case2 seen s h =>
      rw [readAttributes]
      split <;> simp_all
  | case3 seen s name value rest h _ hseen =>
      rw [readAttributes]
      split <;> simp_all
  | case4 seen s name value rest h _ hseen ih =>
      rw [readAttributes]
      split
      · simp
      · simp
      · rename_i name' value' rest' h'
        rw [h, AttributeStep.item.injEq] at h'
        obtain ⟨rfl, rfl, rfl⟩ := h'
        rw [if_neg hseen]
        dsimp only
        rw [List.map_cons, List.nodup_cons]
        refine ⟨⟨ih.2 name List.mem_cons_self, ih.1⟩, fun other hother => ?_⟩
        rw [List.mem_cons, not_or]
        refine ⟨fun heq => hseen ?_, ih.2 other (List.mem_cons_of_mem _ hother)⟩
        rw [String.ofList_injective heq] at hother
        simpa using hother

/-- An element with each of its attributes once. -/
def Opens : Content → Prop
  | .element _ attributes => (attributes.map (·.name)).Nodup
  | _ => False

/-- Open elements down to the fragment that holds everything, with parsed trees in them. -/
def Closes (current : Frame) : List Frame → Prop
  | [] => current.content = .fragment ∧ ∀ tree ∈ current.children, tree.IsParsed
  | frame :: outer => Opens current.content ∧
      (∀ tree ∈ current.children, tree.IsParsed) ∧ Closes frame outer

variable {current : Frame} {outer : List Frame}

theorem Closes.children (h : Closes current outer) : ∀ tree ∈ current.children, tree.IsParsed := by
  cases outer with
  | nil => exact h.2
  | cons frame outer => exact h.2.1

theorem Closes.add (h : Closes current outer) {tree : Tree} (htree : tree.IsParsed) :
    Closes { current with children := tree :: current.children } outer := by
  have hall : ∀ t ∈ tree :: current.children, t.IsParsed :=
    List.forall_mem_cons.mpr ⟨htree, h.children⟩
  cases outer with
  | nil => exact ⟨h.1, hall⟩
  | cons frame outer => exact ⟨h.1, hall, h.2.2⟩

theorem isParsed_tree {frame : Frame} (helement : Opens frame.content)
    (hchildren : ∀ tree ∈ frame.children, tree.IsParsed) : frame.tree.IsParsed := by
  obtain ⟨content, children⟩ := frame
  have hall : Tree.AreParsed children.reverse := by
    rw [Tree.areParsed_iff]
    exact fun tree htree => hchildren tree (List.mem_reverse.mp htree)
  cases content with
  | element tag attributes =>
      rw [Frame.tree, Tree.IsParsed]
      exact ⟨rfl, helement, hall⟩
  | fragment | text s | comment s => exact helement.elim

theorem closeAll_parsed : ∀ {outer : List Frame} {current : Frame}, Closes current outer →
    ∃ trees, Open.closeAll current outer = .node .fragment none trees ∧ Tree.AreParsed trees
  | [], current, h => by
      refine ⟨current.children.reverse, ?_, ?_⟩
      · rw [Open.closeAll, Frame.tree, h.1]
      · rw [Tree.areParsed_iff]
        exact fun tree htree => h.2 tree (List.mem_reverse.mp htree)
  | frame :: outer, current, h => by
      rw [Open.closeAll]
      exact closeAll_parsed (h.2.2.add (isParsed_tree h.1 h.2.1))

theorem closeTo?_closes {tag : String} : ∀ {outer : List Frame} {current : Frame} {o : Open},
    Closes current outer → Open.closeTo? tag current outer = some o → Closes o.current o.outer
  | [], _, _, _, hclose => by cases hclose
  | frame :: outer, current, o, h, hclose => by
      have hclosed := h.2.2.add (isParsed_tree h.1 h.2.1)
      rw [Open.closeTo?] at hclose
      split at hclose
      · cases hclose
        exact hclosed
      · exact closeTo?_closes hclosed hclose

theorem close_closes {o : Open} (h : Closes o.current o.outer) (tag : String) :
    Closes (o.close tag).current (o.close tag).outer := by
  rw [Open.close]
  cases hclose : Open.closeTo? tag o.current o.outer with
  | none => exact h
  | some closed => exact closeTo?_closes h hclose

theorem isParsed_text (s : String) : (Tree.leaf (.text s)).IsParsed := by
  rw [Tree.leaf, Tree.IsParsed]
  exact ⟨rfl, rfl⟩

theorem isParsed_comment (s : String) : (Tree.leaf (.comment s)).IsParsed := by
  rw [Tree.leaf, Tree.IsParsed]
  exact ⟨rfl, rfl⟩

/-! ### Tokens -/

/-- What a token makes of the open elements. -/
def Open.take (o : Open) : Token → Open
  | .start name body empty =>
    let content := Content.element (tagName name) (readAttributes [] body).items
    if empty || isVoidElement (tagName name) then o.add (.leaf content) else o.enter content
  | .close name => o.close (tagName name)
  | .text raw =>
    if (decodeText raw).isEmpty then o else o.add (.leaf (.text (String.ofList (decodeText raw))))
  | .verbatim s => o.add (.leaf (.text (String.ofList s)))
  | .comment s => o.add (.leaf (.comment (String.ofList s)))
  | .aside => o

def Open.after (o : Open) (tokens : List Token) : Open :=
  tokens.foldl take o

/-- All attributes in the token can be read. -/
def Token.IsComplete : Token → Prop
  | .start _ body _ => (readAttributes [] body).complete = true
  | _ => True

variable {broken : Option Nat} {tokens : List (Nat × Token)} {token : Token} {o : Open}

theorem opens_start (name body : List Char) :
    Opens (.element (tagName name) (readAttributes [] body).items) :=
  (readAttributes_nodup [] body).1

theorem isParsed_element {content : Content} (h : Opens content) : (Tree.leaf content).IsParsed :=
  @isParsed_tree ⟨content, []⟩ h (List.forall_mem_nil _)

theorem take_closes (h : Closes o.current o.outer) (token : Token) :
    Closes (o.take token).current (o.take token).outer := by
  cases token with
  | start name body empty =>
      rw [Open.take]
      split
      · exact h.add (isParsed_element (opens_start name body))
      · exact ⟨opens_start name body, List.forall_mem_nil _, h⟩
  | close name => exact close_closes h _
  | text raw =>
      rw [Open.take]
      split
      · exact h
      · exact h.add (isParsed_text _)
  | verbatim s => exact h.add (isParsed_text _)
  | comment s => exact h.add (isParsed_comment _)
  | aside => exact h

theorem build_cons (h : token.IsComplete) (broken : Option Nat) (o : Open) (place : Nat) :
    build broken o ((place, token) :: tokens) = build broken (o.take token) tokens := by
  cases token with
  | start name body empty =>
      have hcomplete : (readAttributes [] body).complete = true := h
      rw [build, Open.take]
      simp only [hcomplete, Bool.not_true, Bool.false_eq_true, if_false]
      split <;> rfl
  | close name | text raw | verbatim s | comment s | aside => rw [build, Open.take]

/-- Reading ends at an attribute in error. -/
theorem build_cons_of_not_complete (h : ¬ token.IsComplete) (broken : Option Nat) (o : Open)
    (place : Nat) (tokens : List (Nat × Token)) : ∃ content, Opens content ∧
      build broken o ((place, token) :: tokens) =
        ⟨o.tree, some (.leaf content), some (.badAttribute place)⟩ := by
  cases token with
  | start name body empty =>
      refine ⟨_, opens_start name body, ?_⟩
      rw [Token.IsComplete, Bool.not_eq_true] at h
      rw [build]
      simp [h]
  | close name | text raw | verbatim s | comment s | aside => exact absurd trivial h

/-- What was read is a fragment of parsed trees, up to an error as well, and the element in error is
parsed. -/
theorem build_parsed {broken : Option Nat} {tokens : List (Nat × Token)} :
    ∀ {o : Open}, Closes o.current o.outer →
      (∃ trees, (build broken o tokens).tree = .node .fragment none trees ∧
        Tree.AreParsed trees) ∧ ∀ stray ∈ (build broken o tokens).stray, stray.IsParsed := by
  induction tokens with
  | nil => exact fun h => ⟨closeAll_parsed h, by simp [build]⟩
  | cons entry rest ih =>
      intro o h
      obtain ⟨place, token⟩ := entry
      by_cases hcomplete : token.IsComplete
      · rw [build_cons hcomplete]
        exact ih (take_closes h token)
      · obtain ⟨content, hopens, hbuild⟩ := build_cons_of_not_complete hcomplete broken o place
          rest
        rw [hbuild]
        refine ⟨closeAll_parsed h, ?_⟩
        rintro _ ⟨⟩
        exact isParsed_element hopens

/-- Reading without an error reads every token and builds the tree of what is open behind them. -/
theorem build_eq_of_error (h : (build broken o tokens).error = none) :
    broken = none ∧ (∀ entry ∈ tokens, entry.2.IsComplete) ∧
      build broken o tokens = ⟨(o.after (tokens.map Prod.snd)).tree, none, none⟩ := by
  induction tokens generalizing o with
  | nil =>
      cases broken with
      | none => exact ⟨rfl, List.forall_mem_nil _, rfl⟩
      | some place => cases h
  | cons entry rest ih =>
      obtain ⟨place, token⟩ := entry
      by_cases hcomplete : token.IsComplete
      · rw [build_cons hcomplete] at h ⊢
        obtain ⟨hbroken, hmore, hbuild⟩ := ih h
        exact ⟨hbroken, List.forall_mem_cons.mpr ⟨hcomplete, hmore⟩, hbuild⟩
      · obtain ⟨content, -, hbuild⟩ := build_cons_of_not_complete hcomplete broken o place
          rest
        rw [hbuild] at h
        cases h

/-- Only an element in error is left out of the tree. -/
theorem build_stray {broken : Option Nat} {tokens : List (Nat × Token)} {o : Open}
    (h : (build broken o tokens).error = none) : (build broken o tokens).stray = none := by
  rw [(build_eq_of_error h).2.2]

theorem read_tree (markup : String) :
    (∃ trees, (read markup).tree = .node .fragment none trees ∧ Tree.AreParsed trees) ∧
      ∀ stray ∈ (read markup).stray, stray.IsParsed :=
  build_parsed ⟨rfl, by simp [Open.start]⟩

theorem read_parsed {markup : String} (h : (read markup).error = none) :
    (read markup).stray = none ∧ ∃ trees, (read markup).tree = .node .fragment none trees ∧
      Tree.AreParsed trees :=
  ⟨build_stray h, (read_tree markup).1⟩

end Markup

end LiveMarkup
