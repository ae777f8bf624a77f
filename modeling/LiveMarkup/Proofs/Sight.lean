import LiveMarkup.Proofs.Arena
import LiveMarkup.Proofs.Page.Tended

/-!
# Sight

What expressions see at an instance. A scope is searched frame by frame, and the first frame that
shows a name decides (`Scope.lookup_eq_some_iff`). The frames of an instance are those of the
fragments around it and of its component, nearest first, so a name is the one that the nearest
fragment brings with it, and else one of the component (`Encloses.seen`).
-/

namespace LiveMarkup

/-! ### Chains of frames -/

namespace Frame

variable {frame : Frame} {name : String} {v : Expr.Value}

/-- The names that were put into a frame come before the fields that it shows. -/
inductive Shows (frame : Frame) (name : String) : Expr.Value → Prop where
  | name {v : Expr.Value} : frame.names.get? name = some v → Shows frame name v
  | field {json : Json} : frame.names.get? name = none → frame.fields.get? name = some json →
      Shows frame name (.ofJson json)

structure Lacks (frame : Frame) (name : String) : Prop where
  names : frame.names.get? name = none
  fields : frame.fields.get? name = none

theorem lookup_eq_none_iff : frame.lookup name = none ↔ frame.Lacks name := by
  rw [lookup]
  constructor
  · intro h
    split at h
    · cases h
    · rename_i hnames
      exact ⟨hnames, Option.map_eq_none_iff.mp h⟩
  · intro h
    rw [h.names, h.fields]
    rfl

theorem lookup_eq_some_iff : frame.lookup name = some v ↔ frame.Shows name v := by
  rw [lookup]
  constructor
  · intro h
    split at h
    · rename_i hnames
      cases h
      exact .name hnames
    · rename_i hnames
      obtain ⟨json, hfield, rfl⟩ := Option.map_eq_some_iff.mp h
      exact .field hnames hfield
  · rintro (hname | ⟨hnames, hfield⟩)
    · rw [hname]
    · rw [hnames, hfield]
      rfl

end Frame

namespace Scope

variable {scope : Scope} {name : String} {v : Expr.Value}

/-- The first frame that shows a name shows `v`. -/
def FirstHit (scope : Scope) (name : String) (v : Expr.Value) : Prop :=
  ∃ before frame after, scope = before ++ frame :: after ∧
    (∀ nearer ∈ before, nearer.Lacks name) ∧ frame.Shows name v

theorem lookup_eq_some_iff : scope.lookup name = some v ↔ scope.FirstHit name v := by
  simp only [lookup, List.findSome?_eq_some_iff, Frame.lookup_eq_none_iff,
    Frame.lookup_eq_some_iff, FirstHit]
  exact exists_congr fun _ => exists_congr fun _ => exists_congr fun _ =>
    and_congr_right fun _ => and_comm

end Scope

namespace Page

variable {page page' : Page} {c f id p : InstanceId} {fragments : List FragmentState}
  {owner : ComponentState} {name : String} {styles : StyleAttacher}

/-! ### Names of fragments -/

/-- A fragment brings other names with it. -/
def localize (page : Page) (f : InstanceId) (locals : Dict Expr.Value) : Page :=
  page.updateSlot f (·.mapFragment ({ · with locals }))

/-- The pages that requests lead to when fragments bring any names with them. -/
inductive Reached (styles : StyleAttacher) : Page → Prop where
  | start : Reached styles (start styles)
  | serve {page : Page} (request : Request) : Reached styles page →
      Reached styles (page.serve request)
  | localize {page : Page} (f : InstanceId) (locals : Dict Expr.Value) : Reached styles page →
      Reached styles (page.localize f locals)

section Localize

variable (locals : Dict Expr.Value)

theorem fit_localized {i : Instance} (h : i.Fit) :
    (i.mapFragment ({ · with locals })).Fit := by
  cases hkind : i.kind with
  | fragment state =>
      have hstate : i.fragment? = some state := Instance.fragment?_of_kind hkind
      rw [Instance.mapFragment_of_fragment? hstate]
      constructor
      · rintro _ ⟨⟩ hroot
        exact h.unmounted state hstate hroot
      · rintro _ ⟨⟩
  | component state | vacant =>
      simpa only [Instance.mapFragment, hkind] using h

/-- What does not look at the names of fragments reads the same. -/
theorem read_localize {β : Type} (read : Instance → β)
    (hread : ∀ i state, i.kind = .fragment state →
      read { i with kind := .fragment { state with locals } } = read i)
    (page : Page) (f j : InstanceId) :
    read ((page.localize f locals).slot j) = read (page.slot j) := by
  refine read_updateSlot read (fun i => ?_) page f j
  unfold Instance.mapFragment
  split
  · rename_i state hkind
    exact hread i state hkind
  · rfl

theorem localize_steady (page : Page) (f : InstanceId) :
    Steady page (page.localize f locals) where
  queue := rfl
  up := funext (read_localize locals (·.parent) (fun _ _ _ => rfl) page f)
  bindings := read_localize locals (·.bindings) (fun _ _ _ => rfl) page f
  scheduled := read_localize locals (·.scheduled) (fun _ _ _ => rfl) page f
  attached := by
    refine read_localize locals (·.isAttached) (fun i state hkind => ?_) page f
    simp only [Instance.isAttached, hkind]
  component := by
    refine read_localize locals (·.component?.isSome) (fun i state hkind => ?_) page f
    simp only [Instance.component?, hkind]
  fragment := by
    refine read_localize locals (·.fragment?.isSome) (fun i state hkind => ?_) page f
    simp only [Instance.fragment?, hkind, Option.isSome_some]

theorem Orderly.localize (h : page.Orderly) (f : InstanceId) :
    (page.localize f locals).Orderly := by
  have hslot : (page.localize f locals).slot f =
      (page.slot f).mapFragment ({ · with locals }) :=
    slot_updateSlot_self _ rfl
  apply h.retouch (retouch_updateSlot page f _)
  · exact hslot ▸ .mapFragment _ fun _ => rfl
  · exact hslot ▸ fit_localized locals (h.fit f)
  · intro e he
    rwa [← (localize_steady locals page f).bindings f]

end Localize

theorem reached_after (styles : StyleAttacher) (requests : List Request) :
    Reached styles (after styles requests) :=
  foldl_respects (fun _ request _ hpage => .serve request hpage) .start

theorem Reached.awaits (h : Reached styles page) : page.Awaits [] fun _ => False := by
  induction h with
  | start => exact start_awaits styles
  | serve request _ ih => exact ih.serve request
  | localize f locals _ ih =>
      exact ih.of_steady (ih.orderly.localize locals f) (localize_steady locals _ f)

/-! ### What an instance sees -/

/-- The fragments from an instance outwards, and the component that they lie in. -/
inductive Encloses (page : Page) : InstanceId → List FragmentState → ComponentState → Prop where
  | component {c : InstanceId} {owner : ComponentState} : page.component? c = some owner →
      Encloses page c [] owner
  | fragment {f p : InstanceId} {state : FragmentState} {fragments : List FragmentState}
      {owner : ComponentState} : page.fragment? f = some state → page.up f = some p →
      Encloses page p fragments owner → Encloses page f (state :: fragments) owner

/-- What a name stands for among fragments, nearest first, in a component. -/
inductive Seen (fragments : List FragmentState) (owner : ComponentState) (name : String) :
    Option Expr.Value → Prop where
  | ofFragment {before after : List FragmentState} {state : FragmentState} {v : Expr.Value} :
      fragments = before ++ state :: after →
      (∀ nearer ∈ before, nearer.locals.get? name = none) →
      state.locals.get? name = some v → Seen fragments owner name (some v)
  | this : (∀ state ∈ fragments, state.locals.get? name = none) → name = "this" →
      Seen fragments owner name (some (fieldsValue owner.fields))
  | exposed {json : Json} : (∀ state ∈ fragments, state.locals.get? name = none) →
      name ≠ "this" → owner.definition.exposed.get? name = some json →
      Seen fragments owner name (some (.ofJson json))
  | nothing : (∀ state ∈ fragments, state.locals.get? name = none) → name ≠ "this" →
      owner.definition.exposed.get? name = none → Seen fragments owner name none

theorem Orderly.exists_encloses (h : page.Orderly) (hid : (page.slot id).isVacant = false) :
    ∃ fragments owner, page.Encloses id fragments owner ∧
      page.component? (page.slot id).component = some owner := by
  refine h.induction (P := fun id => ∃ fragments owner, page.Encloses id fragments owner ∧
    page.component? (page.slot id).component = some owner) ?_ ?_ hid
  · intro c owner howner
    exact ⟨[], owner, .component howner, by rw [(h.component_eq c owner howner).2, howner]⟩
  · rintro f p state hup hstate ⟨fragments, owner, hencloses, howner⟩
    exact ⟨state :: fragments, owner, .fragment hstate hup hencloses,
      by rw [h.component_up p f hup, howner]⟩

namespace Seen

variable {state : FragmentState} {result : Option Expr.Value}

theorem cons_of_hit {v : Expr.Value} (h : state.locals.get? name = some v) :
    Seen (state :: fragments) owner name (some v) :=
  .ofFragment (List.nil_append _).symm (by simp) h

theorem cons_of_miss (h : state.locals.get? name = none)
    (hseen : Seen fragments owner name result) : Seen (state :: fragments) owner name result := by
  have hcons : ∀ {states : List FragmentState},
      (∀ other ∈ states, other.locals.get? name = none) →
        ∀ other ∈ state :: states, other.locals.get? name = none := by
    intro states hstates
    exact List.forall_mem_cons.mpr ⟨h, hstates⟩
  cases hseen with
  | ofFragment hsplit hbefore hv =>
      exact .ofFragment (by rw [hsplit, List.cons_append]) (hcons hbefore) hv
  | this hnone hname => exact .this (hcons hnone) hname
  | exposed hnone hname hjson => exact .exposed (hcons hnone) hname hjson
  | nothing hnone hname hjson => exact .nothing (hcons hnone) hname hjson

end Seen

theorem lookup_fragment (h : page.Orderly) {state : FragmentState}
    (hstate : page.fragment? f = some state) (hup : page.up f = some p) (name : String) :
    (page.scope f).lookup name = (state.locals.get? name).or ((page.scope p).lookup name) := by
  have hpath : page.path f = f :: page.path p := by
    rw [path_eq h (Instance.not_vacant_of_fragment? hstate), hup]
  rw [scope, hpath, List.filterMap_cons, Instance.frame?, Instance.kind_of_fragment? hstate]
  dsimp only
  split
  · rename_i hframe
    have hempty : state.locals.isEmpty = true := by simpa using hframe
    have hentries : state.locals.entries = [] := List.isEmpty_iff.mp hempty
    rw [Dict.get?, hentries, List.lookup_nil, Option.none_or, scope]
  · rename_i frame hframe
    rw [ite_eq_iff] at hframe
    obtain ⟨_, ⟨⟩⟩ | ⟨_, ⟨⟩⟩ := hframe
    rw [Scope.lookup, List.findSome?_cons, Frame.lookup]
    cases state.locals.get? name with
    | some v => rfl
    | none => rfl

theorem seen_component (h : page.Orderly) (howner : page.component? c = some owner)
    (name : String) : Seen [] owner name ((page.scope c).lookup name) := by
  have hup : page.up c = none := (h.component_eq c owner howner).1
  have hpath : page.path c = [c] := by
    rw [path_eq h (Instance.not_vacant_of_component? howner), hup]
  rw [scope, hpath, List.filterMap_cons, Instance.frame?, Instance.kind_of_component? howner]
  dsimp only
  rw [List.filterMap_nil, Scope.lookup, List.findSome?_singleton, Frame.lookup, Dict.get?_insert]
  by_cases hname : name = "this"
  · rw [if_pos hname]
    exact .this (by simp) hname
  · rw [if_neg hname, Dict.get?_empty]
    dsimp only
    cases hexposed : owner.definition.exposed.get? name with
    | some json => exact .exposed (by simp) hname hexposed
    | none => exact .nothing (by simp) hname hexposed

theorem Encloses.seen (h : page.Orderly) (hencloses : page.Encloses id fragments owner)
    (name : String) : Seen fragments owner name ((page.scope id).lookup name) := by
  induction hencloses with
  | component howner => exact seen_component h howner name
  | @fragment f p state fragments owner hstate hup _ ih =>
      rw [lookup_fragment h hstate hup]
      cases hlocal : state.locals.get? name with
      | some v => exact .cons_of_hit hlocal
      | none => exact .cons_of_miss hlocal ih

/-- The innermost name wins, in the frames of an instance as in any chain of frames. -/
theorem resolves_innermost_first :
    (∀ (styles : StyleAttacher) (page : Page), Reached styles page →
      ∀ id, (page.slot id).isVacant = false → ∃ fragments owner,
        page.Encloses id fragments owner ∧
          page.component? (page.slot id).component = some owner ∧
            ∀ name, Seen fragments owner name ((page.scope id).lookup name)) ∧
    ∀ (scope : Scope) (name : String) (v : Expr.Value),
      scope.lookup name = some v ↔ scope.FirstHit name v := by
  refine ⟨fun styles page hpage id hid => ?_, fun scope name v => Scope.lookup_eq_some_iff⟩
  have horderly := hpage.awaits.orderly
  obtain ⟨fragments, owner, hencloses, howner⟩ := horderly.exists_encloses hid
  exact ⟨fragments, owner, hencloses, howner, fun name => hencloses.seen horderly name⟩

/-- A condition within a condition. -/
def nested : Component :=
  (Component.ofMarkup "x-nested" "<b *if=\"this.on\"><i *if=\"this.on\">on</i></b>").addProperty
    "on" (.plain (.bool true))

/-- Both fragments bring an item with them. -/
def shadowing : Page :=
  ((after .elements [.define nested, .create "x-nested", .connect ⟨0⟩ ⟨0⟩]).localize ⟨1⟩
    (Dict.empty.insert "item" (.ofString "outer"))).localize ⟨2⟩
      (Dict.empty.insert "item" (.ofString "inner"))

theorem shadowing_resolves : Reached .elements shadowing ∧
    ((shadowing.scope ⟨1⟩).lookup "item").map (·.display) = some "outer" ∧
    ((shadowing.scope ⟨2⟩).lookup "item").map (·.display) = some "inner" ∧
    ∃ fragments owner, shadowing.Encloses ⟨2⟩ fragments owner ∧
      shadowing.component? (shadowing.slot ⟨2⟩).component = some owner ∧
        ∀ name, Seen fragments owner name ((shadowing.scope ⟨2⟩).lookup name) := by
  have hreached : Reached .elements shadowing :=
    .localize _ _ (.localize _ _ (reached_after _ _))
  refine ⟨hreached, by decide +kernel, by decide +kernel, ?_⟩
  exact resolves_innermost_first.1 .elements shadowing hreached ⟨2⟩ (by decide +kernel)

end Page

end LiveMarkup
