import LiveMarkup.Page.Dispatch
import LiveMarkup.Page.Lifecycle
import LiveMarkup.Page.Write
import LiveMarkup.Proofs.Page.Bindings

/-!
What scripts keep. A script touches the page by storing fields of its component, by marking them, by
edits of the document and by notes; a property that all of these keep is kept by every script, by
the writes that hooks nest and by the handlers of events.
-/

namespace LiveMarkup

variable {allowed : (Dom → Dom) → Prop}

/-- All edits of the document that a script may come to make are allowed. -/
def Script.Edits (allowed : (Dom → Dom) → Prop) : Script → Prop
  | .done => True
  | .get _ next => ∀ answer, (next answer).Edits allowed
  | .look next => ∀ view, (next view).Edits allowed
  | .set _ _ next => next.Edits allowed
  | .mark _ next => next.Edits allowed
  | .edit change next => allowed change ∧ next.Edits allowed
  | .note _ next => next.Edits allowed

structure Hooks.Edits (allowed : (Dom → Dom) → Prop) (hooks : Hooks) : Prop where
  started : hooks.started.Edits allowed
  changed : ∀ field value, (hooks.changed field value).Edits allowed
  beforeUpdate : hooks.beforeUpdate.Edits allowed
  afterUpdate : hooks.afterUpdate.Edits allowed
  removed : hooks.removed.Edits allowed

structure Component.Edits (allowed : (Dom → Dom) → Prop) (c : Component) : Prop where
  hooks : ∀ hooks, c.hooks = some hooks → hooks.Edits allowed
  methods : ∀ name body, c.methods.get? name = some body → body.Edits allowed

/-- Whether a mount reports that it skips its fragment. -/
def Notice.skips : Notice → Bool
  | .anchorDetached _ => true
  | .rootMissing _ => true
  | _ => false

theorem Script.edits_true (script : Script) : script.Edits fun _ => True := by
  induction script with
  | done => trivial
  | get _ _ ih => exact ih
  | look _ ih => exact ih
  | set _ _ _ ih => exact ih
  | mark _ _ ih => exact ih
  | edit _ _ ih => exact ⟨trivial, ih⟩
  | note _ _ ih => exact ih

theorem Component.edits_true (c : Component) : c.Edits fun _ => True where
  hooks _ _ :=
    ⟨Script.edits_true _, fun _ _ => Script.edits_true _, Script.edits_true _,
      Script.edits_true _, Script.edits_true _⟩
  methods _ body _ := Script.edits_true body

namespace Page

variable {P : Page → Prop} {page : Page} {id : InstanceId}

/-- Reflecting a field writes an attribute of the host, or nothing. -/
theorem reflect_keeps (hput : ∀ state name value, page.component? id = some state →
    P (page.editDom (·.putAttribute state.host name value))) (hpage : P page) (field : String) :
    P (page.reflect id field) := by
  unfold reflect
  split
  · exact hpage
  · rename_i state hstate
    split
    · exact hpage
    · dsimp only
      split
      · exact hpage
      · exact hput state _ _ hstate

/-- A property of pages that the scripts of a component keep. -/
structure Respects (allowed : (Dom → Dom) → Prop) (id : InstanceId) (P : Page → Prop) : Prop where
  store : ∀ page field value, P page → P (page.store id field value)
  mark : ∀ page field, P page → P (page.markChanged id field)
  edit : ∀ page change, allowed change → P page → P (page.editDom change)
  note : ∀ (page : Page) entry, P page → P { page with journal := page.journal.push entry }
  overrun : ∀ (page : Page), P page → P { page with overrun := true }
  scripts : ∀ page state, P page → page.component? id = some state →
    state.definition.Edits allowed

theorem run_respects (h : Respects allowed id P) {write : String → Json → Page → Page}
    (hwrite : ∀ page field value, P page → P (write field value page)) {script : Script}
    (hscript : script.Edits allowed) (hpage : P page) : P (run write id script page) := by
  induction script generalizing page with
  | done => exact hpage
  | get field next ih => exact ih _ (hscript _) hpage
  | look next ih =>
      rw [run]
      split
      · exact ih _ (hscript _) hpage
      · exact hpage
  | set field value next ih => exact ih hscript (hwrite page field value hpage)
  | mark field next ih => exact ih hscript (h.mark page field hpage)
  | edit change next ih => exact ih hscript.2 (h.edit page change hscript.1 hpage)
  | note entry next ih => exact ih hscript (h.note page entry hpage)

theorem runHook_respects (h : Respects allowed id P) {write : String → Json → Page → Page}
    (hwrite : ∀ page field value, P page → P (write field value page))
    {hook : Hooks → Script} (hhook : ∀ hooks : Hooks, hooks.Edits allowed → (hook hooks).Edits allowed)
    (hpage : P page) : P (page.runHook write id hook) := by
  unfold runHook
  split
  · rename_i hooks hhooks
    obtain ⟨state, hstate, hsome⟩ := Option.bind_eq_some_iff.mp hhooks
    exact run_respects h hwrite (hhook hooks ((h.scripts page state hpage hstate).hooks hooks hsome))
      hpage
  · exact hpage

theorem writeWithin_respects (h : Respects allowed id P) (nesting : Nat) (field : String)
    (value : Json) (hpage : P page) : P (writeWithin nesting id field value page) := by
  induction nesting generalizing page field value with
  | zero => exact h.overrun _ (h.store page field value hpage)
  | succ nesting ih =>
      exact runHook_respects h (fun page field value hpage => ih field value hpage)
        (fun _ hedits => hedits.changed field value) (h.store page field value hpage)

theorem write_respects (h : Respects allowed id P) (field : String) (value : Json)
    (hpage : P page) : P (write id field value page) :=
  writeWithin_respects h nestingLimit field value hpage

/-- A write may bring about what its hook keeps. -/
theorem write_respects_of_store (h : Respects allowed id P) {field : String} {value : Json}
    (hstore : P (page.store id field value)) : P (write id field value page) := by
  unfold write
  cases nestingLimit with
  | zero => exact h.overrun _ hstore
  | succ nesting =>
      exact runHook_respects h
        (fun _ field value hpage => writeWithin_respects h nesting field value hpage)
        (fun _ hedits => hedits.changed field value) hstore

theorem callHook_respects (h : Respects allowed id P) {hook : Hooks → Script}
    (hhook : ∀ hooks : Hooks, hooks.Edits allowed → (hook hooks).Edits allowed) (hpage : P page) :
    P (page.callHook id hook) :=
  runHook_respects h (fun _ field value hpage => write_respects h field value hpage) hhook hpage

theorem set_respects (h : Respects allowed id P) {field : String} {value : Json} {page' : Page}
    (hdone : page.set id field value = .ok page') (hpage : P page) : P page' := by
  unfold Page.set at hdone
  split at hdone
  · cases hdone
    exact write_respects h field value hpage
  · cases hdone

/-- Setting an attribute of a host edits the document and may write one field. -/
theorem setHostAttribute_respects (h : Respects allowed id P)
    (hput : ∀ (page : Page) state, page.component? id = some state → ∀ name value, P page →
      P (page.editDom (·.putAttribute state.host name value))) {name : String}
    {value : Option String} {page' : Page} (hdone : page.setHostAttribute id name value = .ok page')
    (hpage : P page) : P page' := by
  unfold Page.setHostAttribute at hdone
  split at hdone
  · cases hdone
  · rename_i state hstate
    dsimp only at hdone
    have hdom := hput page state hstate (Text.asciiLower name) value hpage
    split at hdone
    · cases hdone
      exact hpage
    · split at hdone
      · cases hdone
        exact hdom
      · split at hdone
        · cases hdone
          exact hdom
        · split at hdone
          · split at hdone
            · cases hdone
              exact hdom
            · exact set_respects h hdone hdom
          · exact set_respects h hdone hdom

/-! ### Events -/

theorem foldl_respects {β : Type} {step : Page → β → Page} {items : List β}
    (hstep : ∀ page, ∀ x ∈ items, P page → P (step page x)) (hpage : P page) :
    P (items.foldl step page) := by
  induction items generalizing page with
  | nil => exact hpage
  | cons x rest ih =>
      exact ih (fun page y hy => hstep page y (List.mem_cons_of_mem _ hy))
        (hstep page x List.mem_cons_self hpage)

section Events

variable {l : Listener}
  (hreport : ∀ (page : Page) notice, notice.skips = false → P page → P (page.report notice))

include hreport

theorem runStatement_respects (h : Respects allowed l.component P) (event source : String)
    (statement : Statement) (hpage : P page) : P (runStatement event source l page statement) := by
  cases statement with
  | assign field _ value =>
      rw [runStatement]
      split
      · split
        · rename_i hset
          exact set_respects h hset hpage
        · exact hreport page _ rfl hpage
      · exact hreport page _ rfl hpage
  | call method =>
      rw [runStatement]
      split
      · rename_i body hbody
        obtain ⟨state, hstate, hsome⟩ := Option.bind_eq_some_iff.mp hbody
        exact run_respects h (fun _ field value hpage => write_respects h field value hpage)
          ((h.scripts page state hpage hstate).methods method body hsome) hpage
      · exact hreport page _ rfl hpage

theorem fire_respects (h : Respects allowed l.component P) (event : String) (hpage : P page) :
    P (fire event page l) := by
  unfold fire
  split
  · exact hreport page _ rfl hpage
  · exact foldl_respects
      (fun _ statement _ hpage => runStatement_respects hreport h event _ statement hpage) hpage

/-- An event does no more than the handlers do that it finds on its way up. -/
theorem bubble_respects {event : String} (reached : NodeId → Prop)
    (h : ∀ page node, reached node → P page →
      ∀ l ∈ page.listenersAt node event, Respects allowed l.component P)
    (hup : ∀ page node p, reached node → P page → page.dom.parent node = some p → reached p)
    (steps : Nat) {node : NodeId} (hnode : reached node) (hpage : P page) :
    P (bubble event steps node page).1 := by
  induction steps generalizing page node with
  | zero => exact hpage
  | succ steps ih =>
      have hfired := foldl_respects
        (fun _ l hl hpage' => fire_respects hreport (h page node hnode hpage l hl) event hpage') hpage
      rw [bubble]
      dsimp only
      split
      · exact hfired
      · rename_i p hp
        exact ih (hup _ node p hnode hfired hp) hfired

theorem dispatch_respects (h : ∀ id, Respects allowed id P) (node : NodeId) (event : String)
    (hpage : P page) : P (page.dispatch node event).1 :=
  bubble_respects hreport (fun _ => True) (fun _ _ _ _ l _ => h l.component)
    (fun _ _ _ _ _ _ => trivial) _ trivial hpage

end Events

end Page

end LiveMarkup
