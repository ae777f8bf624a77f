import LiveMarkup.Proofs.Dom.Graft
import LiveMarkup.Proofs.Markup.Tokens

/-!
Parsing undoes writing. A tree that markup can say is read back from its markup as it was, whatever its
texts, comments and values hold.
-/

namespace LiveMarkup

namespace Tree

mutual

/-- A tree that markup can say below a fragment. Texts and comments are leaves. -/
def IsNormal : Tree → Prop
  | .node content _ below =>
    match content with
    | .fragment => False
    | .element tag attributes => Markup.IsTag tag ∧
      (∀ a ∈ attributes, Markup.IsAttributeName a.name) ∧ (attributes.map (·.name)).Nodup ∧
        (isVoidElement tag = true → below = []) ∧ AreNormal below
    | .text s => s ≠ "" ∧ Markup.hasSpan s = false ∧ below = []
    | .comment s => Text.occursIn Markup.commentClose s.toList = false ∧ below = []

/-- Trees side by side; no two texts meet. -/
def AreNormal : List Tree → Prop
  | [] => True
  | tree :: rest => IsNormal tree ∧
    (tree.content.isText = true → ∀ next ∈ rest.head?, next.content.isText = false) ∧ AreNormal rest

end

mutual

/-- The tree without its markers, of which markup says nothing. -/
def unmarked : Tree → Tree
  | .node content _ below => .node content none (unmarkedAll below)

def unmarkedAll : List Tree → List Tree
  | [] => []
  | tree :: rest => unmarked tree :: unmarkedAll rest

end

end Tree

namespace Markup

open Html LiveMarkup.Tree

variable {s t rest : List Char} {o o' o'' : Open} {tag : String} {attributes : List Attribute}
  {content : Content} {marker : Option Nat} {below trees : List Tree}

/-! ### Markup as characters -/

theorem toList_element (tag : String) (attributes : List Attribute) (marker : Option Nat)
    (below : List Tree) (rest : List Char) :
    (html (.node (.element tag attributes) marker below)).toList ++ rest =
      '<' :: (tag.toList ++ written attributes) ++ '>' ::
        if isVoidElement tag then rest
        else (htmlAll below).toList ++ ('<' :: ('/' :: tag.toList) ++ '>' :: rest) := by
  have hstart : (startTag tag attributes).toList =
      '<' :: (tag.toList ++ written attributes) ++ ['>'] := by
    rw [startTag, String.toList_append, String.toList_append, String.toList_append,
      toList_join_attributeText]
    simp
  rw [html]
  split
  · rw [hstart]
    simp
  · rw [String.toList_append, String.toList_append, String.toList_append, String.toList_append, hstart]
    simp

theorem toList_text (s : String) : (html (.node (.text s) marker below)).toList =
    s.toList.flatMap (escapeChar false) := by
  rw [html, escapeText, String.toList_ofList]

theorem toList_comment (s : String) : (html (.node (.comment s) marker below)).toList =
    commentOpen ++ s.toList ++ commentClose := by
  rw [html, String.toList_append, String.toList_append]
  rfl

theorem toList_cons (tree : Tree) (trees : List Tree) (rest : List Char) :
    (htmlAll (tree :: trees)).toList ++ rest = tree.html.toList ++ ((htmlAll trees).toList ++ rest) := by
  rw [htmlAll, String.toList_append, List.append_assoc]

/-- The first character of a tag, behind which it goes on. -/
theorem exists_tag_cons (h : IsTag tag) : ∃ c more, tag.toList = c :: more ∧ c ≠ '!' ∧ c ≠ '?' ∧
    c ≠ '/' := by
  obtain ⟨c, more, htag, hlower, -⟩ := h
  have hc := isTagChar_of_isLower hlower
  exact ⟨c, more, htag, ne_of_isTagChar hc (by decide), ne_of_isTagChar hc (by decide),
    ne_of_isTagChar hc (by decide)⟩

theorem passes_close (h : IsTag tag) : Passes ('/' :: tag.toList) :=
  (passes_plain (p := ['/']) (by simp)).append (passes_tag h)

/-- A tag or a comment ends a text before it. -/
theorem stops_html {tree : Tree} (h : tree.IsNormal) (htext : tree.content.isText = false)
    (rest : List Char) : Stops (tree.html.toList ++ rest) := by
  obtain ⟨content, marker, below⟩ := tree
  cases content with
  | fragment =>
      rw [IsNormal] at h
      exact h.elim
  | element tag attributes =>
      rw [toList_element]
      exact stops_lt _
  | text s => cases htext
  | comment s =>
      rw [toList_comment]
      exact stops_lt _

theorem stops_htmlAll (h : AreNormal trees)
    (htext : ∀ next ∈ trees.head?, next.content.isText = false) (hrest : Stops rest) :
    Stops ((htmlAll trees).toList ++ rest) := by
  cases trees with
  | nil =>
      rw [htmlAll]
      exact hrest
  | cons tree trees =>
      rw [AreNormal] at h
      rw [toList_cons]
      exact stops_html h.1 (htext tree rfl) _

theorem Stops.head?_ne (h : Stops rest) {c : Char} (hc : c ≠ '<') : rest.head? ≠ some c :=
  fun hhead => hc (h c hhead)

/-! ### Nothing is protected -/

mutual

theorem protect_html : ∀ {tree : Tree}, tree.IsNormal → ∀ {rest : List Char},
    (tree.content.isText = true → Stops rest) →
      protect (tree.html.toList ++ rest) = tree.html.toList ++ protect rest
  | .node content marker below, h, rest, hrest => by
      cases content with
      | fragment =>
          rw [IsNormal] at h
          exact h.elim
      | text s =>
          rw [IsNormal] at h
          rw [toList_text]
          exact protect_escape h.2.1 ((hrest rfl).head?_ne (by decide))
      | comment s =>
          rw [IsNormal] at h
          rw [toList_comment]
          exact protect_comment h.1 rest
      | element tag attributes =>
          rw [IsNormal] at h
          obtain ⟨htag, hnames, -, -, hbelow⟩ := h
          obtain ⟨c, more, hcons, hc, -⟩ := exists_tag_cons htag
          have hopen := (passes_tag htag).append (passes_written hnames)
          have hclose := passes_close htag
          have hhead : (tag.toList ++ written attributes).head? ≠ some '!' := by
            simpa [hcons] using hc
          rw [toList_element, toList_element, protect_tag hopen hhead]
          by_cases hvoid : isVoidElement tag = true
          · rw [if_pos hvoid, if_pos hvoid]
          · have hstops : Stops ('<' :: ('/' :: tag.toList) ++ '>' :: rest) := stops_lt _
            rw [if_neg hvoid, if_neg hvoid, protect_htmlAll hbelow hstops,
              protect_tag hclose (by simp)]

theorem protect_htmlAll : ∀ {trees : List Tree}, AreNormal trees → ∀ {rest : List Char}, Stops rest →
    protect ((htmlAll trees).toList ++ rest) = (htmlAll trees).toList ++ protect rest
  | [], _, rest, _ => by
      rw [htmlAll]
      rfl
  | tree :: trees, h, rest, hrest => by
      rw [AreNormal] at h
      obtain ⟨hfirst, hnext, hmore⟩ := h
      rw [toList_cons, toList_cons,
        protect_html hfirst fun htext => stops_htmlAll hmore (hnext htext) hrest,
        protect_htmlAll hmore hrest]

end

/-! ### What the tokens build -/

/-- Reading from `s` on adds to the open elements what makes `o` to `o'`, and goes on with `rest`. -/
def Reads (s rest : List Char) (o o' : Open) : Prop :=
  ∀ place, ∃ next, (lex place s).broken = (lex next rest).broken ∧
    ∀ broken, build broken o (lex place s).tokens = build broken o' (lex next rest).tokens

theorem Reads.refl (s : List Char) (o : Open) : Reads s s o o :=
  fun place => ⟨place, rfl, fun _ => rfl⟩

theorem Reads.trans (h : Reads s t o o') (h' : Reads t rest o' o'') : Reads s rest o o'' := by
  intro place
  obtain ⟨next, hbroken, hbuild⟩ := h place
  obtain ⟨last, hbroken', hbuild'⟩ := h' next
  exact ⟨last, hbroken.trans hbroken', fun broken => (hbuild broken).trans (hbuild' broken)⟩

/-- One token read. -/
theorem reads_token {token : Token}
    (hlex : ∀ place, ∃ next, lex place s = (lex next rest).push place token)
    (hbuild : ∀ broken place tokens,
      build broken o ((place, token) :: tokens) = build broken o' tokens) : Reads s rest o o' := by
  intro place
  obtain ⟨next, hnext⟩ := hlex place
  rw [hnext]
  exact ⟨next, rfl, fun broken => hbuild broken place _⟩

/-- Trees added one after the other. -/
def addAll (o : Open) (trees : List Tree) : Open :=
  trees.foldl Open.add o

theorem addAll_eq (o : Open) (trees : List Tree) : addAll o trees =
    { o with current := { o.current with children := trees.reverse ++ o.current.children } } := by
  induction trees generalizing o with
  | nil => rfl
  | cons tree trees ih =>
      rw [addAll, List.foldl_cons]
      change addAll (o.add tree) trees = _
      rw [ih]
      simp [Open.add]

/-- An end tag closes the element that was opened last. -/
theorem close_addAll (hcontent : content.tag? = some tag) (trees : List Tree) :
    (addAll (o.enter content) trees).close tag = o.add (.node content none trees) := by
  rw [addAll_eq, Open.close, Open.enter, Open.closeTo?]
  simp [hcontent, Frame.tree, Open.add]

theorem tree_addAll (trees : List Tree) :
    (addAll Open.start trees).tree = .node .fragment none trees := by
  rw [addAll_eq, Open.tree]
  simp [Open.start, Open.closeAll, Frame.tree]

/-- Characters between tags that are read as another text. -/
theorem reads_raw {raw : List Char} (hs : s ≠ []) (hdecoded : decodeText raw = s)
    (hlt : ∀ c ∈ raw, c ≠ '<') (hrest : Stops rest) :
    Reads (raw ++ rest) rest o (o.add (.leaf (.text (String.ofList s)))) := by
  have hraw : raw ≠ [] := by
    rintro rfl
    exact hs (hdecoded.symm.trans (decodeText_escape []))
  refine reads_token (fun place => lex_text hraw hlt hrest) ?_
  intro broken place tokens
  rw [build]
  rw [hdecoded, if_neg (by simpa using hs)]

theorem reads_text {s : String} (hs : s ≠ "") (hrest : Stops rest) :
    Reads (s.toList.flatMap (escapeChar false) ++ rest) rest o (o.add (.leaf (.text s))) := by
  have hne : s.toList ≠ [] := fun hnil => hs (String.toList_eq_nil_iff.mp hnil)
  have hread := reads_raw (o := o) hne (decodeText_escape s.toList)
    (fun c hc => (mem_escape hc).1) hrest
  rwa [String.ofList_toList] at hread

theorem reads_comment {s : String} (hs : Text.occursIn commentClose s.toList = false) :
    Reads (commentOpen ++ s.toList ++ commentClose ++ rest) rest o (o.add (.leaf (.comment s))) := by
  have hshape : commentOpen ++ s.toList ++ commentClose ++ rest =
      '<' :: ('!' :: '-' :: '-' :: (s.toList ++ commentClose ++ rest)) := by
    simp [commentOpen]
  rw [hshape]
  refine reads_token (fun place => lex_markup (markup?_comment hs rest)) ?_
  intro broken place tokens
  rw [build]
  rw [String.ofList_toList]

/-- A start tag opens its element, or adds it when it is void. -/
theorem reads_start (htag : IsTag tag) (hnames : ∀ a ∈ attributes, IsAttributeName a.name)
    (hnodup : (attributes.map (·.name)).Nodup) :
    Reads ('<' :: (tag.toList ++ written attributes) ++ '>' :: rest) rest o
      (if isVoidElement tag then o.add (.leaf (.element tag attributes))
        else o.enter (.element tag attributes)) := by
  have hpasses := (passes_tag htag).append (passes_written hnames)
  have hattributes : readAttributes [] (written attributes) = ⟨attributes, true⟩ :=
    readAttributes_written hnames hnodup (by simp) rfl
  have hmarkup : markup? (tag.toList ++ written attributes ++ '>' :: rest) =
      some (startToken (tag.toList ++ written attributes), rest) := by
    obtain ⟨c, more, hcons, hc⟩ := exists_tag_cons htag
    rw [hcons] at hpasses ⊢
    exact markup?_start hc hpasses rest
  rw [startToken_written htag hnames] at hmarkup
  refine reads_token (fun place => lex_markup hmarkup) ?_
  · intro broken place tokens
    rw [build]
    rw [hattributes, htag.tagName]
    by_cases hvoid : isVoidElement tag = true
    · simp [hvoid]
    · simp [hvoid]

theorem reads_close (htag : IsTag tag) :
    Reads ('<' :: ('/' :: tag.toList) ++ '>' :: rest) rest o (o.close tag) := by
  refine reads_token (fun place => lex_markup (markup?_close (passes_tag htag) rest)) ?_
  intro broken place tokens
  rw [build]
  rw [closingName_tag htag, htag.tagName]

/-- The tags around what adds trees make an element of them. -/
theorem reads_element {below : List Char} {trees : List Tree} (htag : IsTag tag)
    (hnames : ∀ a ∈ attributes, IsAttributeName a.name) (hnodup : (attributes.map (·.name)).Nodup)
    (hvoid : ¬ isVoidElement tag = true)
    (hbelow : Reads below ('<' :: ('/' :: tag.toList) ++ '>' :: rest)
      (o.enter (.element tag attributes)) (addAll (o.enter (.element tag attributes)) trees)) :
    Reads ('<' :: (tag.toList ++ written attributes) ++ '>' :: below) rest o
      (o.add (.node (.element tag attributes) none trees)) := by
  have hstart : Reads ('<' :: (tag.toList ++ written attributes) ++ '>' :: below) below o _ :=
    reads_start htag hnames hnodup
  rw [if_neg hvoid] at hstart
  have hclosed : (addAll (o.enter (.element tag attributes)) trees).close tag =
      o.add (.node (.element tag attributes) none trees) :=
    close_addAll rfl trees
  rw [← hclosed]
  exact hstart.trans (hbelow.trans (reads_close htag))

mutual

theorem reads_html : ∀ {tree : Tree}, tree.IsNormal → ∀ {rest : List Char} {o : Open},
    (tree.content.isText = true → Stops rest) →
      Reads (tree.html.toList ++ rest) rest o (o.add tree.unmarked)
  | .node content marker below, h, rest, o, hrest => by
      cases content with
      | fragment =>
          rw [IsNormal] at h
          exact h.elim
      | text s =>
          rw [IsNormal] at h
          obtain ⟨hs, -, rfl⟩ := h
          rw [toList_text, unmarked, unmarkedAll]
          exact reads_text hs (hrest rfl)
      | comment s =>
          rw [IsNormal] at h
          obtain ⟨hs, rfl⟩ := h
          rw [toList_comment, unmarked, unmarkedAll]
          exact reads_comment hs
      | element tag attributes =>
          rw [IsNormal] at h
          obtain ⟨htag, hnames, hnodup, hempty, hbelow⟩ := h
          rw [toList_element, unmarked]
          by_cases hvoid : isVoidElement tag = true
          · rw [if_pos hvoid, hempty hvoid, unmarkedAll]
            have hadded : Reads ('<' :: (tag.toList ++ written attributes) ++ '>' :: rest) rest o _ :=
              reads_start htag hnames hnodup
            rw [if_pos hvoid] at hadded
            exact hadded
          · rw [if_neg hvoid]
            exact reads_element htag hnames hnodup hvoid (reads_htmlAll hbelow (stops_lt _))

theorem reads_htmlAll : ∀ {trees : List Tree}, AreNormal trees → ∀ {rest : List Char} {o : Open},
    Stops rest → Reads ((htmlAll trees).toList ++ rest) rest o (addAll o (unmarkedAll trees))
  | [], _, rest, o, _ => by
      rw [htmlAll]
      exact Reads.refl rest o
  | tree :: trees, h, rest, o, hrest => by
      rw [AreNormal] at h
      obtain ⟨hfirst, hnext, hmore⟩ := h
      rw [toList_cons, unmarkedAll]
      have hhead := reads_html hfirst (o := o) fun htext => stops_htmlAll hmore (hnext htext) hrest
      exact hhead.trans (reads_htmlAll hmore hrest)

end

/-- Markup that is read to its end gives the trees that were added. -/
theorem read_of_reads {markup : String} (hprotect : protect markup.toList = s)
    (hmark : s.head? ≠ some '\ufeff') (hreads : Reads s [] Open.start (addAll Open.start trees)) :
    read markup = ⟨.node .fragment none trees, none, none⟩ := by
  have hdrop : dropByteOrderMark s = s := by
    unfold dropByteOrderMark
    split
    · exact absurd rfl hmark
    · rfl
  obtain ⟨next, hbroken, hbuild⟩ := hreads 0
  rw [lex] at hbroken hbuild
  rw [read, hprotect, hdrop, hbuild, hbroken, build, tree_addAll]
  rfl

/-- Written trees are read back as they were. -/
theorem read_htmlAll (h : AreNormal trees)
    (hmark : (htmlAll trees).toList.head? ≠ some '\ufeff') :
    read (htmlAll trees) = ⟨.node .fragment none (unmarkedAll trees), none, none⟩ := by
  have hstops : Stops [] := fun c hc => by cases hc
  have hprotect := protect_htmlAll h hstops
  have hreads := reads_htmlAll h hstops (o := Open.start)
  rw [List.append_nil, protect, List.append_nil] at hprotect
  rw [List.append_nil] at hreads
  exact read_of_reads hprotect hmark hreads

end Markup

/-! ### Stores -/

theorem Dom.parse_of_read {d : Dom} {markup : String} {tree : Tree} (hd : d.Valid)
    (hread : Markup.read markup = ⟨tree, none, none⟩) :
    ∃ root, (d.parse markup).2 = .ok root ∧ (d.parse markup).1.tree root = tree := by
  have hgrafted := graft_grafted tree hd
  rw [Dom.parse, hread]
  exact ⟨_, rfl, hgrafted.tree⟩

/-- Parsing the markup of a fragment makes a fragment with the same below it. -/
theorem Dom.parse_html {source d : Dom} {root : NodeId} {marker : Option Nat} {trees : List Tree}
    (hd : d.Valid) (htree : source.tree root = .node .fragment marker trees)
    (hnormal : Tree.AreNormal trees) (hmark : (source.html root).toList.head? ≠ some '\ufeff') :
    ∃ copy, (d.parse (source.html root)).2 = .ok copy ∧
      (d.parse (source.html root)).1.tree copy = (source.tree root).unmarked := by
  have hhtml : source.html root = Tree.htmlAll trees := by
    rw [Dom.html, htree, Tree.html]
  rw [hhtml] at hmark ⊢
  rw [htree, Tree.unmarked]
  exact parse_of_read hd (Markup.read_htmlAll hnormal hmark)

/-- Quotes, braces, references and the marks of tags and comments, each where it is allowed. -/
def awkward : List Tree :=
  [.node (.element "x-a.b" [⟨"title", "<&amp;\">' \x7b\x7b"⟩, ⟨"*if", ""⟩]) (some 0)
    [.leaf (.text "a<b & c\x7b"), .leaf (.comment "<!-- \x7b\x7b ->"), .leaf (.element "br" [])],
    .leaf (.text "]]>\n")]

theorem parse_html_awkward : Tree.AreNormal awkward ∧
    ∃ copy, (Dom.empty.parse ((Dom.empty.graft (.node .fragment none awkward)).1.html
        (Dom.empty.graft (.node .fragment none awkward)).2.root)).2 = .ok copy ∧
      (Dom.empty.parse ((Dom.empty.graft (.node .fragment none awkward)).1.html
        (Dom.empty.graft (.node .fragment none awkward)).2.root)).1.tree copy =
          (Tree.node .fragment none awkward).unmarked := by
  have hgrafted := Dom.graft_grafted (.node .fragment none awkward) Dom.empty_valid
  have htag : Markup.IsTag "x-a.b" := ⟨'x', ['-', 'a', '.', 'b'], rfl, rfl, rfl⟩
  have hbreak : Markup.IsTag "br" := ⟨'b', ['r'], rfl, rfl, rfl⟩
  have hnormal : Tree.AreNormal awkward := by
    simp only [awkward, Tree.leaf, Tree.AreNormal, Tree.IsNormal, htag, hbreak, Markup.IsAttributeName]
    decide +kernel
  have hmark : ((Dom.empty.graft (.node .fragment none awkward)).1.html
      (Dom.empty.graft (.node .fragment none awkward)).2.root).toList.head? ≠ some '\ufeff' := by
    rw [Dom.html, hgrafted.tree]
    decide +kernel
  have hparsed := Dom.parse_html Dom.empty_valid hgrafted.tree hnormal hmark
  rw [hgrafted.tree] at hparsed
  exact ⟨hnormal, hparsed⟩

end LiveMarkup
