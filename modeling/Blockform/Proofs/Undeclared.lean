-- SUMMARY: What it changes whether callees may be declared by calling them: lowering ends with the first that is not (`declaring_rescues`).
import Blockform.Proofs.Constructs
import Blockform.Proofs.Positions

/-!
# Undeclared callees

Two lowerings of one tree, of which only one may declare the callees that it meets,
go in lockstep: they are in the same state but for the choice, and every step of the
one is the same step of the other until a callee is resolved that is not registered.
There the one declares it, and the other ends (`StrictEnd`). Nothing else in lowering
looks at the choice, so the two differ in nothing else.

Whether such a callee is met can be read off the walk of the tree: the first request
for one ends the walk without the choice, and is granted with it.
-/

namespace Blockform

open Effect

/-! ## The choice -/

/-- The same options but for the choice whether callees are declared. -/
def LowerOptions.declaring (options : LowerOptions) (choice : Bool) : LowerOptions :=
  { options with autoDeclareCallees := choice }

/-- The same context but for the choice. -/
def Context.declaring (ctx : Context) (choice : Bool) : Context :=
  { ctx with options := ctx.options.declaring choice }

/-- The same state but for the choice. -/
def Workspace.declaring (s : Workspace) (choice : Bool) : Workspace :=
  { s with context := s.context.declaring choice }

namespace Context

variable {ctx : Context} {name : String}

theorem declare_declaring (ctx : Context) (name : String) (signature : Signature)
    (choice : Bool) : (ctx.declaring choice).declare name signature =
      ((ctx.declare name signature).1, (ctx.declare name signature).2.declaring choice) := by
  have hprogram : (ctx.declaring choice).program = ctx.program := rfl
  unfold declare
  rw [hprogram]
  by_cases h : ctx.program.size < (ctx.program.declare name signature).2.size
  · simp only [if_pos h]
    rfl
  · simp only [if_neg h]
    rfl

/-- Claiming a function does not look at the choice. -/
theorem claim_declaring (ctx : Context) (name : String) (arity : Nat) (choice : Bool) :
    (ctx.declaring choice).claim name arity =
      (ctx.claim name arity).map fun r => (r.1, r.2.declaring choice) := by
  unfold claim
  rw [declare_declaring, apply_ite (Except.map _)]
  rfl

end Context

/-! ## Lockstep -/

/-- How a run ends that may not declare callees, beside one that may: in the same way,
    unless it has met a callee that is not declared. -/
inductive StrictEnd {σ α : Type} (choose : σ → Bool → σ) :
    EStateM.Result (Abort LoweringError) σ α → EStateM.Result (Abort LoweringError) σ α → Prop where
  | ok (a : α) (s : σ) : StrictEnd choose (.ok a (choose s true)) (.ok a (choose s false))
  | error (e : Abort LoweringError) (s : σ) :
    StrictEnd choose (.error e (choose s true)) (.error e (choose s false))
  | undeclared {lax : EStateM.Result (Abort LoweringError) σ α} {e : LoweringError} {s : σ}
    (h : e.kind = .undeclaredCallee) : StrictEnd choose lax (.error (.error e) s)

namespace Lower

variable {α β : Type}

/-- Without the choice the step does what it does with it, up to the first callee that
    is not declared. -/
def Lockstep (x : Lower α) : Prop :=
  ∀ s : Workspace, StrictEnd Workspace.declaring (x (s.declaring true)) (x (s.declaring false))

theorem Lockstep.bind {x : Lower α} {f : α → Lower β} (hx : Lockstep x)
    (hf : ∀ a, Lockstep (f a)) : Lockstep (x >>= f) := by
  intro s
  have h := hx s
  rw [bind_run, bind_run]
  generalize x (s.declaring true) = lax, x (s.declaring false) = strict at h ⊢
  cases h with
  | ok a s => exact hf a s
  | error e s => exact .error e s
  | undeclared h => exact .undeclared h

theorem Lockstep.locating {x : Lower α} (hx : Lockstep x) (n : Node) :
    Lockstep (locating n x) := by
  intro s
  have h := hx s
  unfold Lower.locating
  generalize x (s.declaring true) = lax, x (s.declaring false) = strict at h ⊢
  cases h with
  | ok a s => exact .ok a s
  | error e s => exact .error _ s
  | undeclared h => exact .undeclared (by rwa [LoweringError.locate_kind])

/-- A step of building does not see the context. -/
theorem build_lockstep (x : Build α) : Lockstep (build x) := by
  intro s
  unfold build Workspace.declaring
  cases x s.builder with
  | ok a b => exact .ok a { s with builder := b }
  | error e b => exact .error e { s with builder := b }

/-- The only step that looks at the choice. -/
theorem resolve_lockstep (name : String) (arity : Nat) : Lockstep (resolve name arity) := by
  intro s
  have hlax : (s.context.declaring true).resolve name arity =
      .ok ((s.context.declaring true).declare name ⟨arity⟩) := rfl
  have hstrict : (s.context.declaring false).resolve name arity =
      (s.context.get name).map (·, s.context.declaring false) := rfl
  unfold resolve
  simp only [Workspace.declaring, hlax, hstrict, Context.declare_declaring, Context.get]
  cases hlookup : s.context.program.lookup name with
  | some id =>
    rw [Context.declare_of_some hlookup]
    exact .ok id s
  | none => exact .undeclared rfl

/-- A function whose body goes in lockstep is built in lockstep. -/
theorem buildFunction_lockstep (name : String) (params : List String) {body : Lower Unit}
    (hbody : Lockstep (body >>= fun _ => fallOff)) (ctx : Context) :
    StrictEnd Context.declaring (Context.buildFunction name params body (ctx.declaring true))
      (Context.buildFunction name params body (ctx.declaring false)) := by
  cases hclaim : ctx.claim name params.length with
  | error e =>
    have hrefused (choice : Bool) :
        (ctx.declaring choice).claim name params.length = .error e := by
      rw [Context.claim_declaring, hclaim]
      rfl
    rw [buildFunction_of_refused (hrefused true), buildFunction_of_refused (hrefused false)]
    exact .error _ ctx
  | ok r =>
    obtain ⟨id, ctx₁⟩ := r
    have hclaimed (choice : Bool) : (ctx.declaring choice).claim name params.length =
        .ok (id, ctx₁.declaring choice) := by
      rw [Context.claim_declaring, hclaim]
      rfl
    rw [buildFunction_of_claim (hclaimed true), buildFunction_of_claim (hclaimed false)]
    have h := hbody (.start ctx₁ name params)
    change StrictEnd _ ((body >>= fun _ => fallOff) (.start (ctx₁.declaring true) name params))
      ((body >>= fun _ => fallOff) (.start (ctx₁.declaring false) name params)) at h
    generalize (body >>= fun _ => fallOff) (.start (ctx₁.declaring true) name params) = lax,
      (body >>= fun _ => fallOff) (.start (ctx₁.declaring false) name params) = strict at h ⊢
    cases h with
    | ok u s => exact .ok id (s.finished id name)
    | error e s => exact .error e s.context
    | undeclared h => exact .undeclared h

theorem nested_lockstep {x : EStateM (Abort LoweringError) Context α}
    (hx : ∀ ctx : Context,
      StrictEnd Context.declaring (x (ctx.declaring true)) (x (ctx.declaring false))) :
    Lockstep (nested x) := by
  intro s
  have h := hx s.context
  unfold nested Workspace.declaring
  generalize x (s.context.declaring true) = lax, x (s.context.declaring false) = strict at h ⊢
  cases h with
  | ok a ctx => exact .ok a { s with context := ctx }
  | error e ctx => exact .error e { s with context := ctx }
  | undeclared h => exact .undeclared h

theorem lockstep_stepRules : StepRules Lockstep where
  pure a s := .ok a s
  bind := .bind
  inspect hf s := hf s.builder s
  locating n hx := hx.locating n
  unsupported _ s := .error _ s
  build _ := build_lockstep _
  note e s := .ok () { s with context := s.context.note e }
  resolve := resolve_lockstep
  function name params _ hbody := nested_lockstep (buildFunction_lockstep name params hbody)

end Lower

/-! ## Requests for callees -/

namespace Walk

variable {options : LowerOptions} {w w' : Walk} {r : Request} {rs : List Request} {name : String}
  {e : LoweringError}

/-- The request is for a callee that is not registered, and is granted by registering
    it. -/
def Declares (w : Walk) (options : LowerOptions) (r : Request) : Prop :=
  ∃ name, r.bare = .call name ∧ name ∉ w.registered ∧ w.step options r = .ok (w.register name)

/-- With the choice such a callee is registered, and without it refused. -/
theorem step_of_unregistered (options : LowerOptions) (hr : r.bare = .call name)
    (hname : name ∉ w.registered) :
    w.step (options.declaring true) r = .ok (w.register name) ∧
      ∃ e, w.step (options.declaring false) r = .error e ∧ e.kind = .undeclaredCallee := by
  induction r with
  | inside n r ih =>
    obtain ⟨hlax, e, hstrict, hkind⟩ := ih hr
    refine ⟨?_, e.locate n, ?_, ?_⟩
    · rw [step, hlax]
    · rw [step, hstrict]
    · rw [LoweringError.locate_kind, hkind]
  | call _ =>
    cases hr
    simp only [step, if_neg hname]
    exact ⟨rfl, _, rfl, rfl⟩
  | _ => cases hr

/-- Any other request is granted or refused alike. -/
theorem step_declaring (w : Walk) (options : LowerOptions) (r : Request) :
    (∃ name, r.bare = .call name ∧ name ∉ w.registered) ∨
      w.step (options.declaring false) r = w.step (options.declaring true) r := by
  induction r with
  | inside n r ih => exact ih.imp_right fun hstep => by rw [step, step, hstep]
  | call name =>
    by_cases hname : name ∈ w.registered
    · exact .inr (by simp only [step, if_pos hname])
    · exact .inl ⟨name, rfl, hname⟩
  | _ => exact .inr rfl

/-- A request that is granted without the choice is granted with it. -/
theorem step_declaring_of_ok (h : w.step (options.declaring false) r = .ok w') :
    w.step (options.declaring true) r = .ok w' := by
  obtain ⟨name, hcall, hname⟩ | hstep := step_declaring w options r
  · obtain ⟨-, e, hstrict, -⟩ := step_of_unregistered options hcall hname
    rw [h] at hstrict
    cases hstrict
  · rw [← hstep, h]

theorem run_declaring_of_ok (h : w.run (options.declaring false) rs = .ok w') :
    w.run (options.declaring true) rs = .ok w' := by
  induction rs generalizing w with
  | nil => exact h
  | cons r rest ih =>
    cases hstep : w.step (options.declaring false) r with
    | error e =>
      rw [run_cons_of_error hstep] at h
      cases h
    | ok w₁ =>
      rw [run_cons_of_ok hstep] at h
      rw [run_cons_of_ok (step_declaring_of_ok hstep)]
      exact ih h

/-- A request that declares a callee with the choice is reached without it, unless there
    is another before it. -/
theorem run_of_declares {granted rest : List Request}
    (h : w.run (options.declaring true) granted = .ok w')
    (hr : w'.Declares (options.declaring true) r) :
    ∃ e, w.run (options.declaring false) (granted ++ r :: rest) = .error e ∧
      e.kind = .undeclaredCallee := by
  induction granted generalizing w with
  | nil =>
    cases h
    obtain ⟨name, hcall, hname, -⟩ := hr
    obtain ⟨-, e, hstrict, hkind⟩ := step_of_unregistered options hcall hname
    exact ⟨e, run_cons_of_error hstrict rest, hkind⟩
  | cons g granted ih =>
    obtain ⟨name, hcall, hname⟩ | hstep := step_declaring w options g
    · obtain ⟨-, e, hstrict, hkind⟩ := step_of_unregistered options hcall hname
      exact ⟨e, run_cons_of_error hstrict _, hkind⟩
    · cases hlax : w.step (options.declaring true) g with
      | error e =>
        rw [run_cons_of_error hlax] at h
        cases h
      | ok w₁ =>
        rw [run_cons_of_ok hlax] at h
        rw [List.cons_append, run_cons_of_ok (hstep.trans hlax)]
        exact ih h

/-- A walk ends with such a callee exactly if it declares one with the choice. -/
theorem run_undeclared :
    (∃ e, w.run (options.declaring false) rs = .error e ∧ e.kind = .undeclaredCallee) ↔
      ∃ granted r rest w', rs = granted ++ r :: rest ∧
        w.run (options.declaring true) granted = .ok w' ∧
        w'.Declares (options.declaring true) r := by
  constructor
  · rintro ⟨e, h, hkind⟩
    obtain ⟨granted, r, rest, w', rfl, hgranted, hrefused⟩ := run_eq_error h
    refine ⟨granted, r, rest, w', rfl, run_declaring_of_ok hgranted, ?_⟩
    obtain ⟨name, hcall, hname⟩ | hstep := step_declaring w' options r
    · exact ⟨name, hcall, hname, (step_of_unregistered _ hcall hname).1⟩
    · rw [hstep] at hrefused
      cases (step_refusal hrefused).2 hkind
  · rintro ⟨granted, r, rest, w', rfl, hgranted, hdeclares⟩
    exact run_of_declares hgranted hdeclares

end Walk

/-! ## Trees -/

/-- A callee that is not registered is declared by lowering the tree: up to the request
    for it all is granted. Lowering registers just what this walk registers
    (`Context.lowerModule_follows`). -/
def Node.DeclaresCallee (tree : Node) (options : LowerOptions) : Prop :=
  ∃ body granted r rest w, tree.kind = .module body ∧ blockAsks body = granted ++ r :: rest ∧
    Walk.run options (.start options) granted = .ok w ∧ w.Declares options r

/-- Lowering ends with a callee that is not declared. -/
def EndsUndeclared (result : Except (Abort LoweringError) Program) : Prop :=
  ∃ e, result = .error (.error e) ∧ e.kind = .undeclaredCallee

variable {options : LowerOptions} {body : List Node} {location : Option Location}
  {span : Option Span}

/-- Lowering a module ends so if its walk does. -/
theorem lower_endsUndeclared :
    EndsUndeclared (lower ⟨.module body, location, span⟩ options) ↔
      ∃ e, Walk.run options (.start options) (blockAsks body) = .error e ∧
        e.kind = .undeclaredCallee := by
  have hmodule := Context.lowerModule_follows body options
  cases hrun : Walk.run options (.start options) (blockAsks body) with
  | ok w =>
    rw [hrun] at hmodule
    obtain ⟨id, ctx, hok, -⟩ := hmodule
    rw [lower_of_ok hok]
    simp [EndsUndeclared]
  | error e =>
    rw [hrun] at hmodule
    obtain ⟨ctx, hfail⟩ := hmodule
    rw [lower_of_error hfail]
    simp [EndsUndeclared]

/-- What is no module is refused for that alone. -/
theorem not_endsUndeclared {tree : Node} (htree : ¬ ∃ body, tree.kind = .module body)
    (options : LowerOptions) : ¬ EndsUndeclared (lower tree options) := by
  obtain ⟨kind, location, span⟩ := tree
  rintro ⟨e, h, hkind⟩
  cases kind with
  | module body => exact htree ⟨body, rfl⟩
  | _ =>
    cases h
    cases hkind

/-- Without the choice a tree is lowered to the result that it has with it, program or
    error, unless lowering ends with a callee that is not declared. -/
theorem lower_lockstep (tree : Node) (options : LowerOptions) :
    lower tree (options.declaring false) = lower tree (options.declaring true) ∨
      EndsUndeclared (lower tree (options.declaring false)) := by
  obtain ⟨kind, location, span⟩ := tree
  cases kind with
  | module body =>
    have hrun : StrictEnd Context.declaring
        (Context.lowerModule body (.start (options.declaring true)))
        (Context.lowerModule body (.start (options.declaring false))) :=
      Lower.buildFunction_lockstep options.entryName [] (Lower.lockstep_stepRules.body body)
        (.start options)
    generalize hlax : Context.lowerModule body (.start (options.declaring true)) = lax,
      hstrict : Context.lowerModule body (.start (options.declaring false)) = strict at hrun
    cases hrun with
    | ok id ctx =>
      rw [lower_of_ok hlax, lower_of_ok hstrict]
      exact .inl rfl
    | error e ctx =>
      rw [lower_of_error hlax, lower_of_error hstrict]
      exact .inl rfl
    | undeclared h =>
      rw [lower_of_error hstrict]
      exact .inr ⟨_, rfl, h⟩
  | _ => exact .inl rfl

/-- That callees may be declared changes nothing but that those which are not are
    rescued. Without it the result is the one with it, the program or the error with its
    position, or the error that a callee is not declared, which is never the result with
    it. It is this error exactly if the tree declares a callee with it, before any error. -/
theorem declaring_rescues (tree : Node) (options : LowerOptions) :
    let lax := lower tree (options.declaring true)
    let strict := lower tree (options.declaring false)
    (strict = lax ∨ EndsUndeclared strict) ∧ ¬ EndsUndeclared lax ∧
      (EndsUndeclared strict ↔ tree.DeclaresCallee (options.declaring true)) := by
  refine ⟨lower_lockstep tree options, ?_⟩
  by_cases htree : ∃ body, tree.kind = .module body
  · obtain ⟨kind, location, span⟩ := tree
    obtain ⟨body, rfl⟩ := htree
    rw [lower_endsUndeclared, lower_endsUndeclared]
    constructor
    · rintro ⟨e, h, hkind⟩
      cases (Walk.run_refusal h).2 hkind
    · refine Walk.run_undeclared.trans ?_
      constructor
      · rintro ⟨granted, r, rest, w, hasks, hgranted, hdeclares⟩
        exact ⟨body, granted, r, rest, w, rfl, hasks, hgranted, hdeclares⟩
      · rintro ⟨_, granted, r, rest, w, hroot, hasks, hgranted, hdeclares⟩
        cases hroot
        exact ⟨granted, r, rest, w, hasks, hgranted, hdeclares⟩
  · have hnot := not_endsUndeclared htree
    refine ⟨hnot _, iff_of_false (hnot _) ?_⟩
    rintro ⟨body, _, _, _, _, hroot, -⟩
    exact htree ⟨body, hroot⟩

/-- That the callee is defined further down is too late. -/
example : EndsUndeclared (lower (.module [.exprStmt (.call "f" []), .functionDef "f" [] []])
    (LowerOptions.declaring {} false)) := ⟨_, rfl, rfl⟩

end Blockform
