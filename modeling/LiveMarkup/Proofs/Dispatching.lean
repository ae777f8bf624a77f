import LiveMarkup.Proofs.Page.Nesting
import LiveMarkup.Proofs.Placement

/-!
# Dispatching

An event runs the handlers on the way from its node up to the root, each once. While they run the
nodes stay where they are and nobody starts or stops to listen (`Handling`), so the handlers are
those that were registered when the event was fired (`Handling.bubble`). What a handler names was
there when it was registered and stays there: each of its statements stores a value, reports that
there is none, or runs a method.
-/

namespace LiveMarkup

/-! ### One after the other -/

/-- Items in turn, each from where the one before it has led. -/
inductive InTurn {α σ : Type} (step : α → σ → σ → Prop) : List α → σ → σ → Prop where
  | nil {s : σ} : InTurn step [] s s
  | cons {x : α} {items : List α} {s s' s'' : σ} :
      step x s s' → InTurn step items s' s'' → InTurn step (x :: items) s s''

namespace InTurn

variable {α σ : Type} {step step' : α → σ → σ → Prop} {items more : List α} {s s' s'' : σ}

theorem append (h : InTurn step items s s') (h' : InTurn step more s' s'') :
    InTurn step (items ++ more) s s'' := by
  induction h with
  | nil => exact h'
  | cons hstep _ ih => exact .cons hstep (ih h')

/-- What a fold does in states that are `good` and stay so. -/
theorem of_foldl (good : σ → Prop) {f : σ → α → σ}
    (hstep : ∀ x ∈ items, ∀ s, good s → step x s (f s x) ∧ good (f s x)) (hs : good s) :
    InTurn step items s (items.foldl f s) ∧ good (items.foldl f s) := by
  induction items generalizing s with
  | nil => exact ⟨.nil, hs⟩
  | cons x rest ih =>
      obtain ⟨hfirst, hgood⟩ := hstep x List.mem_cons_self s hs
      obtain ⟨hrest, hlast⟩ := ih (fun y hy => hstep y (List.mem_cons_of_mem _ hy)) hgood
      exact ⟨.cons hfirst hrest, hlast⟩

theorem keeps {good : σ → Prop} (hstep : ∀ x s s', step x s s' → good s → good s')
    (h : InTurn step items s s') (hs : good s) : good s' := by
  induction h with
  | nil => exact hs
  | cons hfirst _ ih => exact ih (hstep _ _ _ hfirst hs)

/-- What is true in the end and was true before every step that led there. -/
theorem imp_back {good : σ → Prop}
    (hstep : ∀ x s s', step x s s' → good s' → good s ∧ step' x s s')
    (h : InTurn step items s s') (hgood : good s') : good s ∧ InTurn step' items s s' := by
  induction h with
  | nil => exact ⟨hgood, .nil⟩
  | cons hfirst _ ih =>
      obtain ⟨hmiddle, hrest⟩ := ih hgood
      obtain ⟨hs, hfirst'⟩ := hstep _ _ _ hfirst hmiddle
      exact ⟨hs, .cons hfirst' hrest⟩

end InTurn

/-! ### The way up -/

namespace Dom

variable {d : Dom} {n : NodeId} {nodes : List NodeId}

/-- The nodes from a node up to the root of its tree. -/
inductive Upward (d : Dom) : NodeId → List NodeId → Prop where
  | root {n : NodeId} : d.parent n = none → Upward d n [n]
  | step {n p : NodeId} {nodes : List NodeId} :
      d.parent n = some p → Upward d p nodes → Upward d n (n :: nodes)

theorem Valid.upward_path (h : d.Valid) (hn : d.Live n) : d.Upward n (d.path n) := by
  have hpath {n : NodeId} (hn : d.Live n) : d.path n = n :: (d.parent n).elim [] d.path := by
    rw [path, climb_eq_lineage, h.bounded.lineage_eq h.acyclic hn.lt_size]
    cases d.parent n with
    | none => rfl
    | some p => rw [Option.elim_some, path, climb_eq_lineage]
  refine h.induction_up (P := fun n => d.Upward n (d.path n)) (fun n hn ih => ?_) hn
  rw [hpath hn]
  cases hparent : d.parent n with
  | none => exact .root hparent
  | some p => exact .step hparent (ih p hparent)

theorem Valid.nodup_path (h : d.Valid) (n : NodeId) : (d.path n).Nodup := by
  rw [path, climb_eq_lineage]
  exact h.acyclic.nodup_lineage _ n

end Dom

/-- Whether a handler named a component or a method that is not there. -/
def Notice.dangles : Notice → Bool
  | .assignmentRefused _ _ _ | .methodUndefined _ _ => true
  | _ => false

namespace Page

variable {page page' base : Page} {l : Listener} {event : String} {node : NodeId}
  {nodes : List NodeId} {handler : Handler} {reading : Blueprint → List Sketch}
  {known : Component → Prop} {document : NodeId}

/-! ### What handlers do -/

section Handlers

variable (stores : InstanceId → String → Json → Page → Page → Prop)
  (performs : InstanceId → Script → Page → Page → Prop)

/-- What a statement of a handler does. An assignment evaluates on the fields that its component has
by then. -/
inductive Does (event : String) (handler : Handler) (l : Listener) :
    Statement → Page → Page → Prop where
  | assigned {field source : String} {value : Expr.Term} {page page' : Page}
      {state : ComponentState} {v : Expr.Value} {json : Json} :
      page.component? l.component = some state → Expr.eval state.scope.lookup value = .ok v →
      v.json? = some json → stores l.component field json page page' →
      Does event handler l (.assign field source value) page page'
  | failed {field source : String} {value : Expr.Term} {page : Page} {state : ComponentState}
      {e : Expr.EvalError} :
      page.component? l.component = some state → Expr.eval state.scope.lookup value = .error e →
      Does event handler l (.assign field source value) page
        (page.report (.assignmentFailed event handler.source (.evaluation e)))
  | unstorable {field source : String} {value : Expr.Term} {page : Page} {state : ComponentState}
      {v : Expr.Value} :
      page.component? l.component = some state → Expr.eval state.scope.lookup value = .ok v →
      v.json? = none → Does event handler l (.assign field source value) page
        (page.report (.assignmentFailed event handler.source .unstorable))
  | called {method : String} {page page' : Page} {state : ComponentState} {body : Script} :
      page.component? l.component = some state →
      state.definition.methods.get? method = some body → performs l.component body page page' →
      Does event handler l (.call method) page page'

/-- What a listener does when its event comes by. -/
inductive Answers (event : String) (l : Listener) : Page → Page → Prop where
  | invalid {page : Page} : l.handler = none →
      Answers event l page (page.report (.badHandlerFired event l.component.number))
  | valid {handler : Handler} {page page' : Page} : l.handler = some handler →
      InTurn (Does stores performs event handler l) handler.statements page page' →
      Answers event l page page'

end Handlers

/-- The listeners on the way up, nearest node first. -/
def heardOn (page : Page) (nodes : List NodeId) (event : String) : List Listener :=
  nodes.flatMap fun n => page.listenersAt n event

/-- A write with a bound on how deep writes nest. -/
def Sets (id : InstanceId) (field : String) (value : Json) (page page' : Page) : Prop :=
  page.set id field value = .ok page'

/-- A script with a bound on how deep its writes nest. -/
def Runs (id : InstanceId) (body : Script) (page page' : Page) : Prop :=
  run (write id) id body page = page'

/-- What the event does at `node`, where `nodes` are those on its way up. -/
structure Dispatched (page : Page) (node : NodeId) (event : String) (nodes : List NodeId)
    (page' : Page) : Prop where
  way : page.dom.Upward node nodes
  dispatch_eq : page.dispatch node event =
    (page', (page.heardOn nodes (Text.asciiLower event)).length)
  /-- Every listener on the way is fired once. -/
  once : nodes.Nodup ∧ (page.heardOn nodes (Text.asciiLower event)).Perm
    (page.listeners.filter fun l => l.node ∈ nodes ∧ l.event = Text.asciiLower event)
  fires : InTurn (Answers Sets Runs (Text.asciiLower event))
    (page.heardOn nodes (Text.asciiLower event)) page page'
  resolved : ∀ notice ∈ page'.notices, notice ∈ page.notices ∨ notice.dangles = false
  ends : page.Ending → page'.Ending
  /-- Unless writes nest too deep their bound does not matter. -/
  unbounded : page'.overrun = false →
    InTurn (Answers Stores Performs (Text.asciiLower event))
      (page.heardOn nodes (Text.asciiLower event)) page page'

/-! ### While handlers run -/

/-- What handlers leave as it was in `base`. -/
structure Handling (reading : Blueprint → List Sketch) (known : Component → Prop)
    (document : NodeId) (base page : Page) : Prop where
  listeners : page.listeners = base.listeners
  parent : page.dom.parent = base.dom.parent
  awaits : page.Awaits [] fun _ => False
  heard : page.Heard
  tidy : page.Tidy reading known document

namespace Handling

theorem calm (h : Handling reading known document base page) (hcalm : Calm page page')
    (hparent : page'.dom.parent = page.dom.parent) (hawaits : page'.Awaits [] fun _ => False)
    (htidy : page'.Tidy reading known document) :
    Handling reading known document base page' where
  listeners := hcalm.listeners.trans h.listeners
  parent := hparent.trans h.parent
  awaits := hawaits
  heard := h.heard.of_stays hcalm.stays
  tidy := htidy

theorem valid (h : Handling reading known document base page) : page.dom.Valid := by
  obtain ⟨plan, hrested⟩ := h.tidy.rested
  exact hrested.busy.laid.valid

theorem report (h : Handling reading known document base page) {notice : Notice}
    (hskips : notice.skips = false) :
    Handling reading known document base (page.report notice) :=
  h.calm (calm_report page hskips) rfl (h.awaits.of_akin (akin_report page notice))
    (h.tidy.idle (idle_report page hskips))

end Handling

theorem parent_reflect (hvalid : page.dom.Valid) (id : InstanceId) (field : String) :
    (page.reflect id field).dom.parent = page.dom.parent :=
  reflect_keeps (P := fun next => next.dom.parent = page.dom.parent)
    (fun state name value _ => funext (Dom.putAttribute_rewritten hvalid state.host name value).parent)
    rfl field

theorem parent_store (hvalid : page.dom.Valid) (id : InstanceId) (field : String) (value : Json) :
    (page.store id field value).dom.parent = page.dom.parent := by
  have hdom : ((page.putField id field value).markChanged id field).dom = page.dom :=
    (idle_markChanged _ id field).dom
  rw [store_eq, parent_reflect (hdom ▸ hvalid), hdom]

/-- Scripts that leave the document alone leave all that handlers rely on. -/
theorem handling_respects (id : InstanceId) :
    Respects (fun _ => False) id (Handling reading known document base) where
  store page field value h :=
    h.calm (calm_store page id field value) (parent_store h.valid id field value)
      (h.awaits.store id field value) ((tidy_respects id).store page field value h.tidy)
  mark page field h :=
    h.calm (idle_markChanged page id field).toCalm (by rw [(idle_markChanged page id field).dom])
      (h.awaits.markChanged id field) (h.tidy.idle (idle_markChanged page id field))
  edit _ _ hfalse _ := hfalse.elim
  note page entry h :=
    h.calm (calm_of_slots rfl rfl rfl rfl rfl rfl rfl rfl) rfl
      (h.awaits.of_akin ⟨rfl, rfl, rfl, rfl, rfl, rfl, rfl, rfl⟩)
      ((tidy_respects id).note page entry h.tidy)
  overrun page h :=
    h.calm (calm_of_slots rfl rfl rfl rfl rfl rfl rfl rfl) rfl
      (h.awaits.of_akin ⟨rfl, rfl, rfl, rfl, rfl, rfl, rfl, rfl⟩)
      ((tidy_respects id).overrun page h.tidy)
  scripts _ state h hstate := (h.tidy.made _ state hstate).edits

namespace Handling

/-- A listener evaluates on the fields of its component. -/
theorem exists_component (h : Handling reading known document base page)
    (hl : l ∈ base.listeners) : ∃ state, page.component? l.component = some state ∧
      page.scope l.scope = state.scope := by
  have hears := h.heard l (h.listeners ▸ hl)
  have hsome := h.awaits.orderly.belongs l.scope hears.scope
  rw [hears.component] at hsome
  obtain ⟨state, hstate⟩ := Option.isSome_iff_exists.mp hsome
  obtain ⟨plan, hrested⟩ := h.tidy.rested
  refine ⟨state, hstate, hrested.busy.laid.scope_eq h.awaits.orderly hears.scope state ?_⟩
  rw [holder?, hears.component, hstate]

theorem exists_method (h : Handling reading known document base page) (hl : l ∈ base.listeners)
    (hhandler : l.handler = some handler) {method : String} (hmethod : method ∈ handler.methods) :
    ∃ state body, page.component? l.component = some state ∧
      state.definition.methods.get? method = some body := by
  have hears := h.heard l (h.listeners ▸ hl)
  obtain ⟨definition, hdefinition, hhas⟩ := hears.methods handler hhandler method hmethod
  obtain ⟨state, hstate, rfl⟩ := Option.map_eq_some_iff.mp hdefinition
  obtain ⟨body, hbody⟩ := Option.isSome_iff_exists.mp hhas
  exact ⟨state, body, hstate, hbody⟩

theorem does (h : Handling reading known document base page) (hl : l ∈ base.listeners)
    (hhandler : l.handler = some handler) {statement : Statement}
    (hstatement : statement ∈ handler.statements) :
    Does Sets Runs event handler l statement page
      (runStatement event handler.source l page statement) := by
  cases statement with
  | assign field source value =>
      obtain ⟨state, hstate, hscope⟩ := h.exists_component hl
      rw [runStatement, assigned, hscope]
      cases heval : Expr.eval state.scope.lookup value with
      | error e => exact .failed hstate heval
      | ok v =>
          dsimp only
          cases hjson : v.json? with
          | none => exact .unstorable hstate heval hjson
          | some json =>
              have hset : page.set l.component field json =
                  .ok (write l.component field json page) := by rw [Page.set, hstate]
              dsimp only
              rw [hset]
              exact .assigned hstate heval hjson hset
  | call method =>
      have hmethod : method ∈ handler.methods := List.mem_filterMap.mpr ⟨_, hstatement, rfl⟩
      obtain ⟨state, body, hstate, hbody⟩ := h.exists_method hl hhandler hmethod
      rw [runStatement, hstate, Option.bind_some, hbody]
      exact .called hstate hbody rfl

theorem answers (h : Handling reading known document base page) (hl : l ∈ base.listeners)
    (event : String) : Answers Sets Runs event l page (fire event page l) := by
  cases hhandler : l.handler with
  | none =>
      rw [fire, hhandler]
      exact .invalid hhandler
  | some handler =>
      rw [fire, hhandler]
      refine .valid hhandler (InTurn.of_foldl (Handling reading known document base) ?_ h).1
      intro statement hstatement page hpage
      exact ⟨hpage.does hl hhandler hstatement, runStatement_respects
        (fun _ _ hskips hpage => hpage.report hskips) (handling_respects _) event _ statement hpage⟩

theorem listenersAt_eq (h : Handling reading known document base page) (node : NodeId)
    (event : String) : page.listenersAt node event = base.listenersAt node event := by
  rw [listenersAt, listenersAt, h.listeners]

theorem fires (h : Handling reading known document base page) {listeners : List Listener}
    (hlisteners : listeners ⊆ base.listeners) (event : String) :
    InTurn (Answers Sets Runs event) listeners page (listeners.foldl (fire event) page) ∧
      Handling reading known document base (listeners.foldl (fire event) page) :=
  InTurn.of_foldl _ (fun _ hl _ hpage => ⟨hpage.answers (hlisteners hl) event,
    fire_respects (fun _ _ hskips hpage => hpage.report hskips) (handling_respects _) event hpage⟩) h

theorem bubble (h : Handling reading known document base page)
    (hway : base.dom.Upward node nodes) {steps : Nat} (hsteps : nodes.length ≤ steps)
    (event : String) :
    InTurn (Answers Sets Runs event) (base.heardOn nodes event) page
        (Page.bubble event steps node page).1 ∧
      (Page.bubble event steps node page).2 = (base.heardOn nodes event).length := by
  have hsub : ∀ node, base.listenersAt node event ⊆ base.listeners :=
    fun _ => List.filter_subset_self _
  induction hway generalizing page steps with
  | @root node hparent =>
      obtain ⟨steps, rfl⟩ := Nat.exists_eq_add_of_le' hsteps
      obtain ⟨hfires, hhere⟩ := h.fires (hsub node) event
      rw [List.length_singleton, Page.bubble, h.listenersAt_eq]
      dsimp only
      rw [hhere.parent, hparent, heardOn, List.flatMap_singleton]
      exact ⟨hfires, rfl⟩
  | @step node p nodes hparent _ ih =>
      obtain ⟨steps, rfl⟩ := Nat.exists_eq_add_of_le' hsteps
      obtain ⟨hfires, hhere⟩ := h.fires (hsub node) event
      have hrest : nodes.length ≤ steps + nodes.length := Nat.le_add_left _ _
      obtain ⟨habove, hcount⟩ := ih hhere hrest
      have hheard : base.heardOn (node :: nodes) event =
          base.listenersAt node event ++ base.heardOn nodes event := List.flatMap_cons ..
      rw [List.length_cons, ← Nat.add_assoc, Page.bubble, h.listenersAt_eq]
      dsimp only
      rw [hhere.parent, hparent, hheard]
      dsimp only
      rw [hcount, List.length_append]
      exact ⟨hfires.append habove, rfl⟩

end Handling

/-! ### Each listener once -/

theorem perm_flatMap_filter {α β : Type} [DecidableEq β] (key : α → β) (p : α → Prop)
    [DecidablePred p] (items : List α) {keys : List β} (hkeys : keys.Nodup) :
    (keys.flatMap fun k => items.filter fun x => key x = k && p x).Perm
      (items.filter fun x => key x ∈ keys ∧ p x) := by
  induction keys with
  | nil => simp
  | cons k keys ih =>
      obtain ⟨hk, hkeys⟩ := List.nodup_cons.mp hkeys
      have hsplit := List.filter_append_perm (fun x => key x = k)
        (items.filter fun x => key x ∈ k :: keys ∧ p x)
      rw [List.filter_filter, List.filter_filter] at hsplit
      refine List.Perm.trans ?_ hsplit
      rw [List.flatMap_cons]
      refine List.Perm.append (.of_eq ?_) ((ih hkeys).trans (.of_eq ?_))
      · refine List.filter_congr fun x _ => ?_
        by_cases hx : key x = k <;> simp [hx]
      · refine List.filter_congr fun x _ => ?_
        by_cases hx : key x = k
        · simp [hx, hk]
        · simp [hx]

/-! ### Nested writes -/

theorem does_ends {statement : Statement}
    (h : Does Sets Runs event handler l statement page page') (hpage : page.Ending) :
    page'.Ending := by
  cases h with
  | @assigned field _ _ _ _ _ _ json hstate _ _ hset =>
      rw [Sets, Page.set, hstate, Except.ok.injEq] at hset
      rw [← hset]
      exact hpage.write hstate field json
  | failed _ _ => exact ⟨hpage.hooks, hpage.within⟩
  | unstorable _ _ _ => exact ⟨hpage.hooks, hpage.within⟩
  | @called _ _ _ _ body hstate _ hruns =>
      rw [← hruns]
      exact hpage.run hstate body

theorem answers_ends (h : Answers Sets Runs event l page page') (hpage : page.Ending) :
    page'.Ending := by
  cases h with
  | invalid _ => exact ⟨hpage.hooks, hpage.within⟩
  | valid _ hdoes => exact hdoes.keeps (fun _ _ _ hstep hlate => does_ends hstep hlate) hpage

theorem does_unbounded {statement : Statement}
    (h : Does Sets Runs event handler l statement page page') (hoverrun : page'.overrun = false) :
    page.overrun = false ∧ Does Stores Performs event handler l statement page page' := by
  cases h with
  | assigned hstate heval hjson hset =>
      rw [Sets, Page.set, hstate, Except.ok.injEq] at hset
      subst hset
      obtain ⟨hpage, hstores⟩ := stores_of_write hoverrun
      exact ⟨hpage, .assigned hstate heval hjson hstores⟩
  | failed hstate heval => exact ⟨hoverrun, .failed hstate heval⟩
  | unstorable hstate heval hjson => exact ⟨hoverrun, .unstorable hstate heval hjson⟩
  | called hstate hbody hruns =>
      rw [Runs] at hruns
      subst hruns
      obtain ⟨hpage, hperforms⟩ := performs_of_script hoverrun
      exact ⟨hpage, .called hstate hbody hperforms⟩

theorem answers_unbounded (h : Answers Sets Runs event l page page')
    (hoverrun : page'.overrun = false) :
    page.overrun = false ∧ Answers Stores Performs event l page page' := by
  cases h with
  | invalid hhandler => exact ⟨hoverrun, .invalid hhandler⟩
  | valid hhandler hdoes =>
      obtain ⟨hpage, hdoes⟩ :=
        hdoes.imp_back (fun _ _ _ hstep hlate => does_unbounded hstep hlate) hoverrun
      exact ⟨hpage, .valid hhandler hdoes⟩

/-! ### Names that are there -/

/-- Since `base` nothing was reported as not there. -/
def Told (base page : Page) : Prop :=
  ∀ notice ∈ page.notices, notice ∈ base.notices ∨ notice.dangles = false

theorem told_respects (id : InstanceId) : Respects (fun _ => True) id (Told base) :=
  notices_respects (fun _ => Or.inr rfl) id

theorem Told.report {notice : Notice} (h : base.Told page) (hnotice : notice.dangles = false) :
    base.Told (page.report notice) := by
  intro other hmem
  obtain hmem | rfl := Array.mem_push.mp hmem
  · exact h other hmem
  · exact Or.inr hnotice

theorem told_does {statement : Statement}
    (h : Does Sets Runs event handler l statement page page') (hpage : base.Told page) :
    base.Told page' := by
  cases h with
  | assigned _ _ _ hset => exact set_respects (told_respects l.component) hset hpage
  | failed _ _ => exact hpage.report rfl
  | unstorable _ _ _ => exact hpage.report rfl
  | @called method _ _ state body _ _ hruns =>
      rw [← hruns]
      exact run_respects (told_respects l.component)
        (fun _ field value hpage => write_respects (told_respects l.component) field value hpage)
        body.edits_true hpage

theorem told_answers (h : Answers Sets Runs event l page page') (hpage : base.Told page) :
    base.Told page' := by
  cases h with
  | invalid _ => exact hpage.report rfl
  | valid _ hdoes => exact hdoes.keeps (fun _ _ _ hstep hlate => told_does hstep hlate) hpage

/-! ### Events -/

/-- An event at a node of a page whose handlers rely on nothing that they change. -/
theorem Handling.dispatched (h : Handling reading known document page page)
    (hnode : page.dom.Live node) (event : String) :
    ∃ nodes page', page.Dispatched node event nodes page' := by
  have hway := h.valid.upward_path hnode
  have hnodup := h.valid.nodup_path node
  obtain ⟨hanswers, hcount⟩ := h.bubble hway (Dom.length_path_le _ _) (Text.asciiLower event)
  have honce := perm_flatMap_filter (·.node) (·.event = Text.asciiLower event) page.listeners hnodup
  refine ⟨page.dom.path node, (page.dispatch node event).1, hway, Prod.ext rfl hcount,
    ⟨hnodup, honce⟩, hanswers, ?_, ?_, ?_⟩
  · exact hanswers.keeps (fun _ _ _ hstep hlate => told_answers hstep hlate) fun _ => Or.inl
  · exact hanswers.keeps fun _ _ _ hstep hlate => answers_ends hstep hlate
  · intro hoverrun
    exact (hanswers.imp_back (fun _ _ _ hstep hlate => answers_unbounded hstep hlate) hoverrun).2

theorem handling_after {styles : StyleAttacher} {requests : List Request}
    (hplain : ∀ request ∈ requests, request.Plain Component.FromMarkup (start styles).document) :
    ∃ reading, Handling reading (fun _ => True) (start styles).document
      (after styles requests) (after styles requests) := by
  obtain ⟨reading, hreading⟩ := exists_reading
  refine ⟨reading, rfl, rfl, awaits_after styles requests, heard_after styles requests, ?_⟩
  exact tidy_after fun request hrequest => (hplain request hrequest).imp fun definition hfrom =>
    ⟨hreading definition hfrom, hfrom.edits, trivial⟩

/-- Whatever was asked of components that were read from markup and are connected under the
document, an event fires every listener on its way up once. -/
theorem dispatch_fires_once (styles : StyleAttacher) (requests : List Request)
    (hplain : ∀ request ∈ requests, request.Plain Component.FromMarkup (start styles).document)
    (node : NodeId) (hnode : (after styles requests).dom.Live node) (event : String) :
    ∃ nodes page', (after styles requests).Dispatched node event nodes page' := by
  obtain ⟨reading, hhandling⟩ := handling_after hplain
  exact hhandling.dispatched hnode event

def clickerMarkup : String :=
  "<p @click=\"this.n += 1; this.m = this.n\"><b @click=\"tally(); this.m = missing(1)\">b</b></p>"

/-- A node with two statements above one that calls a method and then fails. -/
def clicker : Component :=
  ((Component.ofMarkup "x-clicker" clickerMarkup).addProperty "n" (.plain (.int 0))).addMethod
    "tally" (.get "n" fun _ => .set "n" (.int 5) .done)

def clicked : List Request :=
  [.define clicker, .create "x-clicker", .connect ⟨0⟩ ⟨0⟩]

theorem plain_clicked : ∀ request ∈ clicked,
    request.Plain Component.FromMarkup (start .elements).document := by
  have hclicker : clicker.FromMarkup :=
    ((Component.FromMarkup.ofMarkup (by decide +kernel) "x-clicker").addProperty "n" _).addMethod
      "tally" fun _ => trivial
  intro request hrequest
  simp only [clicked, List.mem_cons, List.not_mem_nil, or_false] at hrequest
  rcases hrequest with rfl | rfl | rfl
  · exact hclicker
  · trivial
  · rfl

theorem clicked_dispatch_fires :
    (∀ request ∈ clicked, request.Plain Component.FromMarkup (start .elements).document) ∧
      (after .elements clicked).dom.Live ⟨5⟩ ∧
        ((after .elements clicked).dispatch ⟨5⟩ "CLICK").2 = 2 ∧
          ∃ nodes page', (after .elements clicked).Dispatched ⟨5⟩ "CLICK" nodes page' := by
  have hlive : (after .elements clicked).dom.Live ⟨5⟩ := by decide +kernel
  have hcount : ((after .elements clicked).dispatch ⟨5⟩ "CLICK").2 = 2 := by
    have hlower : Text.asciiLower "CLICK" = "click" := by decide +kernel
    rw [dispatch, hlower]
    decide +kernel
  exact ⟨plain_clicked, hlive, hcount,
    dispatch_fires_once .elements clicked plain_clicked ⟨5⟩ hlive "CLICK"⟩

end Page

end LiveMarkup
