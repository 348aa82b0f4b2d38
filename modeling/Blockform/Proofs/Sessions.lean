-- SUMMARY: The registry after any calls in any order (`Session.Reaches`): a name and a number belong together for good, and so does a body once there is one.
import Blockform.Proofs.Outcomes
import Blockform.Proofs.Permanence
import Blockform.Proofs.Registry

/-!
# Sessions with a registry

Numbers of functions are answered in four ways: a name is declared, a callee is
resolved, a function is claimed, or lowered as a whole. The body of a claimed
function arrives later, and any other calls may be made in between; a function
that could not be lowered stays claimed for good. Through all of this a registry
is sound (`Context.Sound`): names are distinct, and what is claimed has no body
yet. Every call keeps that, and lets the registry grow (`Context.Evolves`).
-/

namespace Blockform

open Effect

/-! ## Names -/

namespace Program

variable {p : Program} {name : String} {id : FunctionId}

/-- Where no two functions have a name in common, a name is found at the number
    of the function that bears it. -/
theorem lookup_eq_some_of_nodup (h : (p.functions.map Function.name).Nodup) :
    p.lookup name = some id ↔ ∃ f, p.function? id = some f ∧ f.name = name := by
  rw [lookup_eq_some]
  constructor
  · rintro ⟨f, hf, hname, -⟩
    exact ⟨f, hf, hname⟩
  · rintro ⟨f, hf, rfl⟩
    refine ⟨f, hf, rfl, fun j g hj hg heq => Nat.ne_of_lt hj ?_⟩
    have hlt : j < (p.functions.map Function.name).length := by
      rw [List.length_map]
      exact (List.getElem?_eq_some_iff.mp hg).1
    refine (List.getElem?_inj hlt h).mp ?_
    rw [List.getElem?_map, List.getElem?_map, hg, show p.functions[id.val]? = some f from hf]
    rw [Option.map_some, Option.map_some, heq]

theorem declare_nodup (h : (p.functions.map Function.name).Nodup) (name : String)
    (signature : Signature) : ((p.declare name signature).2.functions.map Function.name).Nodup := by
  cases hlookup : p.lookup name with
  | some id =>
    rw [declare_of_some hlookup]
    exact h
  | none =>
    rw [declare_of_none hlookup, register_functions, List.map_append, List.nodup_append]
    refine ⟨h, by simp, fun x hx y hy heq => ?_⟩
    obtain ⟨f, hf, rfl⟩ := List.mem_map.mp hx
    have hy : y = name := List.mem_singleton.mp hy
    exact lookup_eq_none.mp hlookup f hf (heq.trans hy)

end Program

/-! ## Sound registries -/

namespace Context

variable {ctx ctx' ctx'' : Context} {name : String} {arity : Nat} {id : FunctionId}
  {e : LoweringError}

/-- No two functions share a name, and those under construction are declared. -/
structure Sound (ctx : Context) : Prop where
  names : (ctx.program.functions.map Function.name).Nodup
  building : ∀ id ∈ ctx.building, ∃ f, ctx.program.function? id = some f ∧ f.isDeclaration = true

/-- The registry after some calls, whichever of them have succeeded. What was
    under construction still is. -/
structure Evolves (ctx ctx' : Context) : Prop where
  sound : ctx'.Sound
  program : ctx.program.Grows ctx'.program
  building : ∀ id ∈ ctx.building, id ∈ ctx'.building

/-- From a sound registry, calls of which none was to attach a body to what was
    already under construction. -/
def Develops (ctx ctx' : Context) : Prop := ctx.Sound → ctx.Evolves ctx'

instance : Std.Refl Develops where
  refl ctx hs := ⟨hs, .refl ctx.program, fun _ hid => hid⟩

instance : Trans Develops Develops Develops where
  trans h h' hs :=
    have he := h hs
    have he' := h' he.sound
    ⟨he'.sound, he.program.trans he'.program, fun id hid => he'.building id (he.building id hid)⟩

theorem Sound.start (options : LowerOptions) : (start options).Sound where
  names := by
    have hfold (names : List String) (p : Program) (hp : (p.functions.map Function.name).Nodup) :
        ((names.foldl (fun p name => (p.declare name ⟨1⟩).2) p).functions.map
          Function.name).Nodup := by
      induction names generalizing p with
      | nil => exact hp
      | cons name rest ih => exact ih _ (Program.declare_nodup hp _ _)
    exact hfold options.builtins {} List.nodup_nil
  building _ hid := nomatch hid

theorem note_develops (ctx : Context) (e : Event) : ctx.Develops (ctx.note e) :=
  fun hs => ⟨⟨hs.names, hs.building⟩, .refl ctx.program, fun _ hid => hid⟩

theorem declare_develops (ctx : Context) (name : String) (signature : Signature) :
    ctx.Develops (ctx.declare name signature).2 := by
  intro hs
  obtain ⟨-, hprogram, -, hbuilding⟩ := declare_eq ctx name signature
  refine ⟨⟨?_, fun id hid => ?_⟩, (declare_grows ctx name signature).program, fun id hid => ?_⟩
  · rw [hprogram]
    exact Program.declare_nodup hs.names name signature
  · rw [hbuilding] at hid
    obtain ⟨f, hf, hd⟩ := hs.building id hid
    rw [hprogram]
    exact ⟨f, Program.function?_declare hf name signature, hd⟩
  · rw [hbuilding]
    exact hid

theorem resolve_develops (h : ctx.resolve name arity = .ok (id, ctx')) : ctx.Develops ctx' := by
  rcases (resolve_eq_ok h).2 with rfl | rfl
  · exact Std.Refl.refl ctx'
  · exact declare_develops ctx name ⟨arity⟩

/-- A claim is refused only if the name is registered already, so that it was not
    declared for the claim. -/
theorem claim_eq_error (hs : ctx.Sound) (h : ctx.claim name arity = .error e) :
    (ctx.declare name ⟨arity⟩).2 = ctx := by
  cases hlookup : ctx.program.lookup name with
  | some id => rw [declare_of_some hlookup]
  | none =>
    obtain ⟨hid, hprogram, -, hbuilding⟩ := declare_eq ctx name ⟨arity⟩
    rw [Program.declare_of_none hlookup] at hid hprogram
    have hfree : (ctx.declare name ⟨arity⟩).1 ∉ ctx.building := by
      intro hmem
      obtain ⟨f, hf, -⟩ := hs.building _ hmem
      rw [hid] at hf
      exact Nat.lt_irrefl _ (List.getElem?_eq_some_iff.mp hf).1
    have hnew : (ctx.declare name ⟨arity⟩).2.program.function? (ctx.declare name ⟨arity⟩).1 =
        some (.declaration name ⟨arity⟩) := by
      rw [hprogram, hid]
      simp [Program.function?, Program.size]
    unfold claim at h
    simp only [hbuilding, hfree, hnew] at h
    cases h

/-- A number that has been claimed is found under the name. -/
theorem lookup_claim (h : ctx.claim name arity = .ok (id, ctx')) :
    ctx'.program.lookup name = some id := by
  obtain ⟨hid, -, -, rfl⟩ := claim_eq_ok h
  exact hid ▸ lookup_declare ctx name ⟨arity⟩

/-- A function that has its body is never claimed again. -/
theorem claim_of_body {f : Function} (hlookup : ctx.program.lookup name = some id)
    (hf : ctx.program.function? id = some f) (hbody : f.isDeclaration = false) (arity : Nat) :
    ctx.claim name arity = .error (.duplicate name) := by
  unfold claim
  simp [declare_of_some hlookup, hf, hbody]

theorem claim_develops (h : ctx.claim name arity = .ok (id, ctx')) : ctx.Develops ctx' := by
  intro hs
  obtain ⟨-, -, hdeclared, rfl⟩ := claim_eq_ok h
  have he := declare_develops ctx name ⟨arity⟩ hs
  obtain ⟨-, -, -, hbuilding⟩ := declare_eq ctx name ⟨arity⟩
  refine ⟨⟨he.sound.names, fun other hother => ?_⟩, he.program, fun other hother =>
    List.mem_cons_of_mem _ hother⟩
  rcases List.mem_cons.mp hother with rfl | hother
  · exact hdeclared
  · exact he.sound.building other (hbuilding ▸ hother)

/-- A body that is attached to a claimed number. All others that are under
    construction still are. -/
theorem complete_sound (hs : ctx.Sound) (hid : id ∈ ctx.building) (b : Builder) :
    (ctx.complete id b).Sound ∧ ctx.program.Grows (ctx.complete id b).program := by
  obtain ⟨f, hf, hd⟩ := hs.building id hid
  refine ⟨⟨?_, fun other hother => ?_⟩, Program.define_grows hf hd b.finish⟩
  · change ((ctx.program.define id b.finish).functions.map Function.name).Nodup
    rw [Program.names_define]
    exact hs.names
  · obtain ⟨hmem, hne⟩ := List.mem_filter.mp hother
    obtain ⟨g, hg, hd⟩ := hs.building other hmem
    refine ⟨g, ?_, hd⟩
    change (ctx.program.define id b.finish).function? other = some g
    rw [Program.function?_define_ne (of_decide_eq_true hne)]
    exact hg

end Context

/-! ## Lowering -/

/-- A step of lowering does to the registry what calls on it do. -/
def Workspace.Develops (s s' : Workspace) : Prop := s.context.Develops s'.context

namespace Workspace.Develops

instance : Std.Refl Workspace.Develops where
  refl s := Std.Refl.refl s.context

instance : Trans Workspace.Develops Workspace.Develops Workspace.Develops where
  trans h h' := Trans.trans (r := Context.Develops) (s := Context.Develops) h h'

end Workspace.Develops

namespace Lower

theorem build_develops {α : Type} (x : Build α) : Obeys Workspace.Develops (build x) := by
  intro s
  rw [after_build]
  exact Std.Refl.refl s.context

/-- A function that could not be built stays claimed. One that was has its body,
    and is no longer under construction. -/
theorem buildFunction_develops (name : String) (params : List String) {body : Lower Unit}
    (hbody : Obeys Workspace.Develops (body >>= fun _ => fallOff)) :
    Obeys Context.Develops (Context.buildFunction name params body) := by
  intro ctx hs
  cases hclaim : ctx.claim name params.length with
  | error e =>
    rw [after_of_error (buildFunction_of_refused hclaim)]
    exact Std.Refl.refl (r := Context.Develops) ctx hs
  | ok r =>
    obtain ⟨id, ctx₁⟩ := r
    obtain ⟨-, hfree, -, heq⟩ := Context.claim_eq_ok hclaim
    have hclaimed := Context.claim_develops hclaim hs
    have hstart : ctx₁.Develops (Workspace.start ctx₁ name params).context :=
      Trans.trans (Context.note_develops _ _) (Context.note_develops _ _)
    have hbuilt := Trans.trans hstart (hbody (.start ctx₁ name params)) hclaimed.sound
    cases hrun : (body >>= fun _ => fallOff) (.start ctx₁ name params) with
    | error e s =>
      rw [after_of_error hrun] at hbuilt
      rw [after_of_error (by rw [buildFunction_of_claim hclaim, hrun])]
      exact ⟨hbuilt.sound, hclaimed.program.trans hbuilt.program, fun other hother =>
        hbuilt.building _ (hclaimed.building _ hother)⟩
    | ok u s =>
      rw [after_of_ok hrun] at hbuilt
      rw [after_of_ok (by rw [buildFunction_of_claim hclaim, hrun])]
      have hid : id ∈ s.context.building :=
        hbuilt.building id (by rw [heq]; exact List.mem_cons_self ..)
      obtain ⟨hsound, hgrows⟩ := Context.complete_sound hbuilt.sound hid s.builder
      refine ⟨⟨hsound.names, hsound.building⟩,
        (hclaimed.program.trans hbuilt.program).trans hgrows, fun other hother => ?_⟩
      -- The number was free before, so it is none of those that stay claimed.
      refine List.mem_filter.mpr ⟨hbuilt.building _ (hclaimed.building _ hother), ?_⟩
      simpa using fun h : other = id => hfree (h ▸ hother)

/-- A function that was built is found under its name. -/
theorem lookup_buildFunction {name : String} {params : List String} {body : Lower Unit}
    {ctx ctx' : Context} {id : FunctionId} (hs : ctx.Sound)
    (hbody : Obeys Workspace.Develops body)
    (h : Context.buildFunction name params body ctx = .ok id ctx') :
    ctx'.program.lookup name = some id := by
  cases buildFunction_run h with
  | @mk ctx₁ s s' hclaim hrun hcursor hend =>
    have hclaimed := Context.claim_develops hclaim hs
    have hbuilt := hbody (.start ctx₁ name params) ⟨hclaimed.sound.names, hclaimed.sound.building⟩
    rw [after_of_ok hrun] at hbuilt
    have hcontext : s'.context = s.context := by
      rcases hend with ⟨-, rfl⟩ | ⟨-, rfl⟩ <;> rfl
    obtain ⟨-, -, -, heq⟩ := Context.claim_eq_ok hclaim
    have hid : id ∈ s'.context.building := by
      rw [hcontext]
      exact hbuilt.building id (by rw [heq]; exact List.mem_cons_self ..)
    have hgrows := (Context.complete_sound (hcontext ▸ hbuilt.sound) hid s'.builder).2
    have hlookup : ctx₁.program.lookup name = some id := Context.lookup_claim hclaim
    exact hgrows.lookup (hcontext ▸ hbuilt.program.lookup hlookup)

theorem develops_stepRules : StepRules (Obeys Workspace.Develops) := by
  refine obeys_stepRules (fun _ => build_develops _) (fun s e => Context.note_develops s.context e)
    (fun s name signature => Context.declare_develops s.context name signature)
    fun name params body hbody s => ?_
  rw [after_nested]
  exact buildFunction_develops name params hbody s.context

theorem block_develops (ns : List Node) : Obeys Workspace.Develops (block ns) :=
  develops_stepRules.block fun n _ => develops_stepRules.statement n

end Lower

/-! ## Sessions -/

/-- A registry with the numbers that have been claimed and not been used yet. -/
structure Session where
  context : Context
  handles : List FunctionId := []

namespace Session

/-- The state before the first call. -/
def start (options : LowerOptions) : Session := { context := .start options }

/-- A call on the registry. -/
inductive Call where
  | declare (name : String) (signature : Signature)
  | resolve (name : String) (arity : Nat)
  | claim (name : String) (arity : Nat)
  | lower (name : String) (params : List String) (body : List Node)
  | complete (id : FunctionId) (name : String) (params : List String) (calls : List Builder.Call)

/-- The step that makes the call, with the number that it is about. A claim
    declares the name before it may be refused, and the body of `complete` is what
    calls of building have made of a function of any name. -/
def Call.step : Call → EStateM (Abort LoweringError) Session FunctionId
  | .declare name signature => fun s =>
    let (id, context) := s.context.declare name signature
    .ok id { s with context }
  | .resolve name arity => fun s =>
    match s.context.resolve name arity with
    | .ok (id, context) => .ok id { s with context }
    | .error e => .error (.error e) s
  | .claim name arity => fun s =>
    match s.context.claim name arity with
    | .ok (id, context) => .ok id ⟨context, id :: s.handles⟩
    | .error e => .error (.error e) { s with context := (s.context.declare name ⟨arity⟩).2 }
  | .lower name params body => fun s =>
    match Context.buildFunction name params (Lower.block body) s.context with
    | .ok id context => .ok id { s with context }
    | .error e context => .error e { s with context }
  | .complete id name params calls => fun s =>
    .ok id ⟨s.context.complete id ((Builder.start name params).afterAll calls),
      s.handles.filter (· ≠ id)⟩

/-- The name that the call answers the number of. -/
def Call.named : Call → Option String
  | .declare name _ | .resolve name _ | .claim name _ | .lower name _ _ => some name
  | .complete .. => none

/-- A body is attached once, to a number that has been claimed for it. -/
def Permits (s : Session) : Call → Prop
  | .complete id _ _ _ => id ∈ s.handles
  | _ => True

/-- One state can be reached from another by calls, of which each may succeed or
    fail. -/
inductive Reaches (s : Session) : Session → Prop
  | refl : Reaches s s
  | call {s' : Session} (h : Reaches s s') (c : Call) (hc : s'.Permits c) :
    Reaches s (after c.step s')

/-- The registry is sound, and the claimed numbers are under construction. -/
structure Sound (s : Session) : Prop where
  context : s.context.Sound
  handles : ∀ id ∈ s.handles, id ∈ s.context.building

variable {s s' : Session} {c : Call}

theorem Sound.start (options : LowerOptions) : (start options).Sound :=
  ⟨.start options, fun _ hid => nomatch hid⟩

/-- A call that leaves the claimed numbers alone. -/
theorem Sound.evolve (hs : s.Sound) {ctx : Context} (h : s.context.Evolves ctx) :
    Sound { s with context := ctx } ∧ s.context.program.Grows ctx.program :=
  ⟨⟨h.sound, fun id hid => h.building id (hs.handles id hid)⟩, h.program⟩

/-- What a call keeps. -/
theorem Sound.call (hs : s.Sound) (hc : s.Permits c) :
    (after c.step s).Sound ∧ s.context.program.Grows (after c.step s).context.program := by
  cases c with
  | declare name signature => exact hs.evolve (Context.declare_develops _ name signature hs.context)
  | resolve name arity =>
    simp only [after, Call.step]
    cases h : s.context.resolve name arity with
    | ok r => exact hs.evolve (Context.resolve_develops h hs.context)
    | error e => exact ⟨hs, .refl _⟩
  | claim name arity =>
    simp only [after, Call.step]
    cases h : s.context.claim name arity with
    | ok r =>
      obtain ⟨id, ctx⟩ := r
      have he := Context.claim_develops h hs.context
      obtain ⟨-, -, -, heq⟩ := Context.claim_eq_ok h
      refine ⟨⟨he.sound, fun other hother => ?_⟩, he.program⟩
      rcases List.mem_cons.mp hother with rfl | hother
      · change other ∈ ctx.building
        rw [heq]
        exact List.mem_cons_self ..
      · exact he.building other (hs.handles other hother)
    | error e => exact hs.evolve (Context.declare_develops _ name ⟨arity⟩ hs.context)
  | lower name params body =>
    have he := Lower.buildFunction_develops name params (Lower.develops_stepRules.body body)
      s.context hs.context
    have hstep : after (Call.lower name params body).step s = { s with
        context := after (Context.buildFunction name params (Lower.block body)) s.context } := by
      simp only [after, Call.step]
      cases Context.buildFunction name params (Lower.block body) s.context <;> rfl
    rw [hstep]
    exact hs.evolve he
  | complete id name params calls =>
    have hid := hs.handles id hc
    obtain ⟨hsound, hgrows⟩ := Context.complete_sound hs.context hid
      ((Builder.start name params).afterAll calls)
    refine ⟨⟨hsound, fun other hother => ?_⟩, hgrows⟩
    obtain ⟨hmem, hne⟩ := List.mem_filter.mp hother
    exact List.mem_filter.mpr ⟨hs.handles other hmem, hne⟩

theorem Reaches.sound (h : s.Reaches s') (hs : s.Sound) :
    s'.Sound ∧ s.context.program.Grows s'.context.program := by
  induction h with
  | refl => exact ⟨hs, .refl _⟩
  | call h c hc ih =>
    obtain ⟨hsound, hgrows⟩ := ih.1.call hc
    exact ⟨hsound, ih.2.trans hgrows⟩

/-! ## Answers -/

/-- A number that is answered for a name is found under that name. -/
theorem Sound.lookup_answer (hs : s.Sound) {name : String} {id : FunctionId}
    (hc : c.named = some name) (h : c.step s = .ok id s') :
    s'.context.program.lookup name = some id := by
  cases c with
  | declare n signature =>
    cases hc
    cases h
    exact Context.lookup_declare s.context name signature
  | resolve n arity =>
    cases hc
    simp only [Call.step] at h
    cases hresolve : s.context.resolve name arity with
    | error e =>
      rw [hresolve] at h
      cases h
    | ok r =>
      rw [hresolve] at h
      cases h
      exact (Context.resolve_eq_ok hresolve).1
  | claim n arity =>
    cases hc
    simp only [Call.step] at h
    cases hclaim : s.context.claim name arity with
    | error e =>
      rw [hclaim] at h
      cases h
    | ok r =>
      rw [hclaim] at h
      cases h
      exact Context.lookup_claim hclaim
  | lower n params body =>
    cases hc
    simp only [Call.step] at h
    cases hbuild : Context.buildFunction name params (Lower.block body) s.context with
    | error e ctx =>
      rw [hbuild] at h
      cases h
    | ok id' ctx =>
      rw [hbuild] at h
      cases h
      exact Lower.lookup_buildFunction hs.context (Lower.block_develops body) hbuild
  | complete => cases hc

/-- A claim or a callee that is refused changes nothing. -/
theorem Sound.refused (hs : s.Sound) {name : String} {arity : Nat} {e : Abort LoweringError}
    (h : (Call.claim name arity).step s = .error e s' ∨
      (Call.resolve name arity).step s = .error e s') : s' = s := by
  simp only [Call.step] at h
  rcases h with h | h
  · cases hclaim : s.context.claim name arity with
    | ok r =>
      rw [hclaim] at h
      cases h
    | error e =>
      rw [hclaim] at h
      cases h
      rw [Context.claim_eq_error hs.context hclaim]
  · cases hresolve : s.context.resolve name arity with
    | ok r =>
      rw [hresolve] at h
      cases h
    | error e =>
      rw [hresolve] at h
      cases h
      rfl

/-- In every state that calls can reach, a name and a number belong together: the
    name is found exactly at the number of the function that bears it, and no other
    function does. A number that is answered is found under its name, and a refusal
    changes nothing. Whatever is called after that, every number keeps its name,
    whichever name its body was built under, and a function that has its body keeps
    it, since it is never claimed again. -/
theorem registered_for_good {options : LowerOptions} (hs : (start options).Reaches s)
    (hs' : s.Reaches s') :
    (∀ name id, s.context.program.lookup name = some id ↔
      ∃ f, s.context.program.function? id = some f ∧ f.name = name) ∧
    (s.context.program.functions.map Function.name).Nodup ∧
    (∀ (c : Call) name id s₁, c.named = some name → c.step s = .ok id s₁ →
      s₁.context.program.lookup name = some id) ∧
    (∀ name arity e s₁, (Call.claim name arity).step s = .error e s₁ ∨
      (Call.resolve name arity).step s = .error e s₁ → s₁ = s) ∧
    (∀ id f, s.context.program.function? id = some f →
      ∃ f', s'.context.program.function? id = some f' ∧ f'.name = f.name) ∧
    (∀ id f, s.context.program.function? id = some f → f.isDeclaration = false →
      s'.context.program.function? id = some f ∧
        ∀ arity, (Call.claim f.name arity).step s' = .error (.error (.duplicate f.name)) s') := by
  have hsound := (hs.sound (.start options)).1
  obtain ⟨hsound', hgrows⟩ := hs'.sound hsound
  refine ⟨fun name id => Program.lookup_eq_some_of_nodup hsound.context.names,
    hsound.context.names, fun c name id s₁ hc h => hsound.lookup_answer hc h,
    fun name arity e s₁ h => hsound.refused h, fun id f hf => ?_, fun id f hf hbody => ?_⟩
  · obtain ⟨f', hf', hname, -⟩ := hgrows.functions _ f hf
    exact ⟨f', hf', hname⟩
  · obtain ⟨f', hf', -, heq⟩ := hgrows.functions _ f hf
    obtain rfl := heq hbody
    have hlookup := (Program.lookup_eq_some_of_nodup hsound'.context.names).mpr ⟨f', hf', rfl⟩
    refine ⟨hf', fun arity => ?_⟩
    have hclaim := Context.claim_of_body hlookup hf' hbody arity
    simp only [Call.step, hclaim, Context.declare_of_some hlookup]

/-- A body that was built under another name is found under the name that was
    claimed for it, and that name is never claimed again. -/
theorem renamed_body_for_good :
    let s := after (Call.complete ⟨1⟩ "g" [] [.ret (.int 0)]).step
      (after (Call.claim "f" 0).step (start {}))
    let s' := after (Call.lower "f" ["x"] []).step s
    s.context.program.lookup "f" = some ⟨1⟩ ∧
      (Call.claim "f" 2).step s' = .error (.error (.duplicate "f")) s' := by
  intro s s'
  have hs : (start {}).Reaches s :=
    (Reaches.refl.call (.claim "f" 0) trivial).call (.complete ⟨1⟩ "g" [] [.ret (.int 0)])
      (List.mem_singleton.mpr rfl)
  have hs' : s.Reaches s' := Reaches.refl.call (.lower "f" ["x"] []) trivial
  obtain ⟨hlookup, -, -, -, -, hbody⟩ := registered_for_good hs hs'
  obtain ⟨f, hf, hname, hd⟩ : ∃ f, s.context.program.function? ⟨1⟩ = some f ∧ f.name = "f" ∧
      f.isDeclaration = false := ⟨_, rfl, rfl, rfl⟩
  refine ⟨(hlookup "f" ⟨1⟩).mpr ⟨f, hf, hname⟩, ?_⟩
  have hclaim := (hbody ⟨1⟩ f hf hd).2 2
  rwa [hname] at hclaim

end Session

end Blockform
