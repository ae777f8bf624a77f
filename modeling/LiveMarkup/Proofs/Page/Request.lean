import LiveMarkup.Template.Compile
import LiveMarkup.Proofs.Page.Connect

/-!
Everything that can be asked of a page, and the pages that come of it. A request that is refused
leaves the page as it is.
-/

namespace LiveMarkup

inductive Request where
  | define (definition : Component)
  | create (tag : String)
  | connect (id : InstanceId) (parent : NodeId)
  | disconnect (id : InstanceId)
  | set (id : InstanceId) (field : String) (value : Json)
  | setHostAttribute (id : InstanceId) (name : String) (value : Option String)
  | markChanged (id : InstanceId) (field : String)
  | dispatch (node : NodeId) (event : String)
  | mount (id : InstanceId)
  | unmount (id : InstanceId)
  | runFrame
  | runUntilIdle (limit : Nat)

/-- A component with a template read from markup; markup that does not compile gives an empty one.
-/
def Component.ofMarkup (tag markup : String) : Component :=
  match (Registry.builtin.compile markup).1 with
  | .ok made => .ofTemplate tag made.value
  | .error _ => .ofTemplate tag ⟨.empty, ⟨0⟩, []⟩

namespace Page

variable {page page' : Page} {id : InstanceId}

/-- The page that an operation leads to, or the page as it was. -/
def settle {ε : Type} (page : Page) : Except ε Page → Page
  | .ok next => next
  | .error _ => page

def serve (page : Page) : Request → Page
  | .define definition => page.settle (page.define definition)
  | .create tag => page.settle ((page.create tag).map (·.1))
  | .connect id parent => page.settle (page.connect id parent)
  | .disconnect id => page.settle (page.disconnect id)
  | .set id field value => page.settle (page.set id field value)
  | .setHostAttribute id name value => page.settle (page.setHostAttribute id name value)
  | .markChanged id field => page.markChanged id field
  | .dispatch node event => (page.dispatch node event).1
  | .mount id => page.mount id
  | .unmount id => page.unmount id
  | .runFrame => page.runFrame.1
  | .runUntilIdle limit => (runUntilIdle limit page).1

/-- The page after some requests, one after the other. -/
def after (styles : StyleAttacher) (requests : List Request) : Page :=
  requests.foldl serve (start styles)

theorem after_append (styles : StyleAttacher) (requests : List Request) (request : Request) :
    after styles (requests ++ [request]) = (after styles requests).serve request := by
  rw [after, List.foldl_append]
  rfl

theorem settle_of {ε : Type} {P : Page → Prop} {result : Except ε Page} (hpage : P page)
    (hdone : ∀ next, result = .ok next → P next) : P (page.settle result) := by
  cases result with
  | ok next => exact hdone next rfl
  | error _ => exact hpage

/-! ### What is true of every page -/

theorem slot_start (styles : StyleAttacher) (id : InstanceId) :
    (start styles).slot id = .alone id .vacant :=
  slot_of_size_le (Nat.zero_le _)

theorem start_orderly (styles : StyleAttacher) : (start styles).Orderly := by
  have hslot := slot_start styles
  refine ⟨⟨?_, ?_, ?_, ?_, ?_⟩, List.nodup_nil, ?_, ?_, ?_, ?_, ?_, ?_, ?_, ?_, ?_, ?_⟩
  · intro id e he
    rw [hslot] at he
    exact absurd he Bindings.not_holds_empty
  · intro id id' e e' he
    rw [hslot] at he
    exact absurd he Bindings.not_holds_empty
  · intro id e f he
    rw [hslot] at he
    exact absurd he Bindings.not_holds_empty
  · intro id e e' f he
    rw [hslot] at he
    exact absurd he Bindings.not_holds_empty
  · intro n hn
    cases hn
  · intro id
    constructor
    · intro hmem
      cases hmem
    · rintro ⟨hlt, _⟩
      exact absurd hlt (Nat.not_lt_zero _)
  · exact fun id _ => hslot id
  · intro id
    rw [hslot]
    exact ⟨fun _ hfalse _ => (by cases hfalse), fun _ hfalse _ => (by cases hfalse)⟩
  · intro id state hstate
    rw [component?, hslot] at hstate
    cases hstate
  · intro id state hstate
    rw [fragment?, hslot] at hstate
    cases hstate
  · intro p id
    rw [hslot, hslot]
    constructor
    · intro hmem
      cases hmem
    · intro hsome
      cases hsome
  · intro p
    rw [hslot]
    exact List.nodup_nil
  · intro p id hsome
    rw [hslot] at hsome
    cases hsome
  · intro p id hsome
    rw [hslot] at hsome
    cases hsome
  · intro id hid
    rw [hslot] at hid
    cases hid

theorem start_awaits (styles : StyleAttacher) : (start styles).Awaits [] fun _ => False := by
  have hslot := slot_start styles
  refine ⟨start_orderly styles, ?_, List.nodup_nil, ?_, ?_⟩
  · intro id hfragment
    rw [fragment?, hslot] at hfragment
    cases hfragment
  · intro id
    rw [hslot, component?, hslot]
    constructor
    · intro hmem
      cases hmem
    · rintro ⟨_, hfalse⟩
      cases hfalse
  · intro id hcomponent
    rw [component?, hslot] at hcomponent
    cases hcomponent

theorem Awaits.write {rest : List InstanceId} {busy : InstanceId → Prop}
    (h : page.Awaits rest busy) (id : InstanceId) (field : String) (value : Json) :
    (Page.write id field value page).Awaits rest busy :=
  write_respects (awaits_respects id) field value h

theorem Awaits.set {rest : List InstanceId} {busy : InstanceId → Prop}
    (h : page.Awaits rest busy) {field : String} {value : Json}
    (hdone : page.set id field value = .ok page') : page'.Awaits rest busy := by
  unfold Page.set at hdone
  split at hdone
  · cases hdone
    exact h.write id field value
  · cases hdone

theorem Awaits.setHostAttribute {rest : List InstanceId} {busy : InstanceId → Prop}
    (h : page.Awaits rest busy) {name : String} {value : Option String}
    (hdone : page.setHostAttribute id name value = .ok page') : page'.Awaits rest busy := by
  unfold Page.setHostAttribute at hdone
  split at hdone
  · cases hdone
  · rename_i state hstate
    dsimp only at hdone
    have hput : (page.editDom
        (·.putAttribute state.host (Text.asciiLower name) value)).Awaits rest busy :=
      h.of_akin (akin_editDom page _)
    split at hdone
    · cases hdone
      exact h
    · split at hdone
      · cases hdone
        exact hput
      · split at hdone
        · cases hdone
          exact hput
        · split at hdone
          · split at hdone
            · cases hdone
              exact hput
            · exact hput.set hdone
          · exact hput.set hdone

theorem Awaits.serve (h : page.Awaits [] fun _ => False) (request : Request) :
    (page.serve request).Awaits [] fun _ => False := by
  cases request with
  | define definition =>
      refine settle_of h fun next hdone => ?_
      unfold Page.define at hdone
      split at hdone
      · cases hdone
      · split at hdone
        · cases hdone
        · cases hdone
          exact h.of_steady (h.orderly.alter (h.orderly.toWired.of_held (le_refl _)
            (fun _ hn => Or.inl hn) (fun _ _ he => he) fun _ _ hx => hx) rfl rfl
            (fun _ => .refl _) h.orderly.fit)
            ⟨rfl, rfl, fun _ => rfl, fun _ => rfl, fun _ => rfl, fun _ => rfl, fun _ => rfl⟩
  | create tag =>
      refine settle_of h fun next hdone => ?_
      cases hcreate : page.create tag with
      | error e =>
          rw [hcreate] at hdone
          cases hdone
      | ok made =>
          rw [hcreate] at hdone
          cases hdone
          exact h.create hcreate
  | connect id parent => exact settle_of h fun _ hdone => h.connect hdone
  | disconnect id => exact settle_of h fun _ hdone => h.disconnect hdone
  | set id field value => exact settle_of h fun _ hdone => h.set hdone
  | setHostAttribute id name value => exact settle_of h fun _ hdone => h.setHostAttribute hdone
  | markChanged id field => exact h.markChanged id field
  | dispatch node event =>
      exact dispatch_respects (fun _ _ _ hpage => hpage.of_akin (akin_report _ _)) awaits_respects
        node event h
  | mount id => exact h.mount id
  | unmount id => exact h.unmount id
  | runFrame => exact h.runFrame
  | runUntilIdle limit => exact h.runUntilIdle limit

theorem awaits_after (styles : StyleAttacher) (requests : List Request) :
    (after styles requests).Awaits [] fun _ => False :=
  foldl_respects (fun _ request _ hpage => hpage.serve request) (start_awaits styles)

end Page

end LiveMarkup
