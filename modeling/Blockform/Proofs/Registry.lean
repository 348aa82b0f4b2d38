-- SUMMARY: How the registry of a lowering grows: functions keep their numbers, their names and their bodies (`Context.Grows`).
import Blockform.Proofs.Constructs

/-!
# Growth of the registry

All functions of a lowering share one program. A function keeps its number and
its name, and a body that is attached to it stays (`Program.Grows`). A function
that is under construction is claimed: whatever is lowered meanwhile leaves it
as it is, which is why its own body can be attached at the end.
-/

namespace Blockform

/-! ## Programs -/

/-- A program after some more functions were declared or got a body. -/
structure Program.Grows (p p' : Program) : Prop where
  functions : ∀ (i : Nat) (f : Function), p.functions[i]? = some f →
    ∃ f', p'.functions[i]? = some f' ∧ f'.name = f.name ∧ (f.isDeclaration = false → f' = f)

namespace Program

variable {p p' p'' : Program} {name : String} {id : FunctionId}

theorem Grows.refl (p : Program) : p.Grows p := ⟨fun _ f hf => ⟨f, hf, rfl, fun _ => rfl⟩⟩

theorem Grows.trans (h : p.Grows p') (h' : p'.Grows p'') : p.Grows p'' := by
  refine ⟨fun i f hf => ?_⟩
  obtain ⟨f', hf', hname, hbody⟩ := h.functions i f hf
  obtain ⟨f'', hf'', hname', hbody'⟩ := h'.functions i f' hf'
  refine ⟨f'', hf'', hname'.trans hname, fun hd => ?_⟩
  have heq := hbody hd
  rw [← heq] at hd
  rw [hbody' hd, heq]

theorem Grows.size_le (h : p.Grows p') : p.size ≤ p'.size := by
  refine Nat.le_of_not_lt fun hlt => ?_
  have hget : p.functions[p'.size]? = some p.functions[p'.size] := List.getElem?_eq_getElem hlt
  obtain ⟨f', hf', -⟩ := h.functions _ _ hget
  exact Nat.lt_irrefl _ (List.getElem?_eq_some_iff.mp hf').1

theorem lookup_eq_some :
    p.lookup name = some id ↔
      ∃ f, p.function? id = some f ∧ f.name = name ∧
        ∀ j g, j < id.val → p.functions[j]? = some g → g.name ≠ name := by
  unfold function?
  rw [lookup_eq, Option.map_eq_some_iff]
  constructor
  · rintro ⟨i, hi, rfl⟩
    obtain ⟨hlt, hname, hfirst⟩ := List.findIdx?_eq_some_iff_getElem.mp hi
    refine ⟨p.functions[i], List.getElem?_eq_getElem hlt, by simpa using hname, fun j g hj hg => ?_⟩
    obtain ⟨hjlt, rfl⟩ := List.getElem?_eq_some_iff.mp hg
    simpa using hfirst j hj
  · rintro ⟨f, hf, rfl, hfirst⟩
    obtain ⟨hlt, rfl⟩ := List.getElem?_eq_some_iff.mp hf
    refine ⟨id.val, List.findIdx?_eq_some_iff_getElem.mpr ⟨hlt, by simp, fun j hj => ?_⟩, rfl⟩
    simpa using hfirst j _ hj (List.getElem?_eq_getElem (Nat.lt_trans hj hlt))

/-- A name keeps its number. -/
theorem Grows.lookup (h : p.Grows p') (hid : p.lookup name = some id) :
    p'.lookup name = some id := by
  obtain ⟨f, hf, rfl, hfirst⟩ := lookup_eq_some.mp hid
  obtain ⟨f', hf', hname, -⟩ := h.functions _ f hf
  refine lookup_eq_some.mpr ⟨f', hf', hname, fun j g' hj hg' => ?_⟩
  have hj' : j < p.functions.length := Nat.lt_trans hj (List.getElem?_eq_some_iff.mp hf).1
  obtain ⟨g'', hg'', hname', -⟩ := h.functions j _ (List.getElem?_eq_getElem hj')
  cases hg''.symm.trans hg'
  rw [hname']
  exact hfirst j _ hj (List.getElem?_eq_getElem hj')

theorem lookup_eq_none : p.lookup name = none ↔ ∀ f ∈ p.functions, f.name ≠ name := by
  simp [lookup_eq]

/-- A declaration is added behind the others if the name is new. -/
theorem declare_of_none (h : p.lookup name = none) (signature : Signature) :
    p.declare name signature = (⟨p.size⟩, p.register (.declaration name signature)) := by
  rw [declare, h]

theorem declare_of_some (h : p.lookup name = some id) (signature : Signature) :
    p.declare name signature = (id, p) := by
  rw [declare, h]

/-- What is registered stays as it is when another name is declared. -/
theorem function?_declare {f : Function} (hf : p.function? id = some f) (name : String)
    (signature : Signature) : (p.declare name signature).2.function? id = some f := by
  cases h : p.lookup name with
  | some id' =>
    rw [declare_of_some h]
    exact hf
  | none =>
    rw [declare_of_none h, function?, register_functions,
      List.getElem?_append_left (List.getElem?_eq_some_iff.mp hf).1]
    exact hf

theorem declare_grows (p : Program) (name : String) (signature : Signature) :
    p.Grows (p.declare name signature).2 :=
  ⟨fun i f hf =>
    have hf : p.function? ⟨i⟩ = some f := hf
    ⟨f, function?_declare hf name signature, rfl, fun _ => rfl⟩⟩

theorem lookup_declare (p : Program) (name : String) (signature : Signature) :
    (p.declare name signature).2.lookup name = some (p.declare name signature).1 := by
  cases h : p.lookup name with
  | some id =>
    rw [declare_of_some h]
    exact h
  | none =>
    rw [declare_of_none h]
    refine lookup_eq_some.mpr ⟨.declaration name signature, by simp [function?, size], rfl, ?_⟩
    intro j g hj hg
    rw [register_functions, List.getElem?_append_left hj] at hg
    exact lookup_eq_none.mp h g (List.mem_of_getElem? hg)

/-- A body that is attached to a declaration. -/
theorem define_grows {f : Function} (hf : p.function? id = some f) (hd : f.isDeclaration = true)
    (body : Function) : p.Grows (p.define id body) := by
  refine ⟨fun i g hg => ?_⟩
  by_cases hi : id.val = i
  · subst hi
    cases (show p.functions[id.val]? = some f from hf).symm.trans hg
    refine ⟨{ body with name := f.name }, by simp [define, hg], rfl, fun hbody => ?_⟩
    rw [hd] at hbody
    cases hbody
  · exact ⟨g, by simp [define, hi, hg], rfl, fun _ => rfl⟩

theorem function?_define_self {f : Function} (hf : p.function? id = some f) (body : Function) :
    (p.define id body).function? id = some { body with name := f.name } := by
  have hf : p.functions[id.val]? = some f := hf
  simp [define, function?, hf]

theorem function?_define_ne {other : FunctionId} (h : other ≠ id) (body : Function) :
    (p.define id body).function? other = p.function? other := by
  have hval : id.val ≠ other.val := fun heq => h (by cases id; cases other; simp_all)
  simp [define, function?, hval]

@[simp] theorem size_define (body : Function) : (p.define id body).size = p.size := by
  simp [define, size]

@[simp] theorem names_define (p : Program) (id : FunctionId) (body : Function) :
    (p.define id body).functions.map Function.name = p.functions.map Function.name := by
  refine List.ext_getElem? fun i => ?_
  by_cases hi : id.val = i
  · cases h : p.functions[i]? <;> simp [define, hi, h]
  · simp [define, hi]

end Program

/-! ## Contexts -/

/-- The state of a lowering after some more of it, in between which no function
    under construction was finished. -/
structure Context.Grows (ctx ctx' : Context) : Prop where
  program : ctx.program.Grows ctx'.program
  options : ctx'.options = ctx.options
  building : ctx'.building = ctx.building
  claimed : ∀ id ∈ ctx.building, ∀ f, ctx.program.function? id = some f →
    ctx'.program.function? id = some f

namespace Context

variable {ctx ctx' ctx'' : Context} {name : String} {arity : Nat} {id : FunctionId}

theorem Grows.refl (ctx : Context) : ctx.Grows ctx := ⟨.refl _, rfl, rfl, fun _ _ _ hf => hf⟩

theorem Grows.trans (h : ctx.Grows ctx') (h' : ctx'.Grows ctx'') : ctx.Grows ctx'' where
  program := h.program.trans h'.program
  options := h'.options.trans h.options
  building := h'.building.trans h.building
  claimed id hid f hf := h'.claimed id (h.building ▸ hid) f (h.claimed id hid f hf)

theorem Grows.note (ctx : Context) (e : Event) : ctx.Grows (ctx.note e) :=
  ⟨.refl _, rfl, rfl, fun _ _ _ hf => hf⟩

/-- Declaring a name declares it in the program, and notes that at most. -/
theorem declare_eq (ctx : Context) (name : String) (signature : Signature) :
    (ctx.declare name signature).1 = (ctx.program.declare name signature).1 ∧
      (ctx.declare name signature).2.program = (ctx.program.declare name signature).2 ∧
      (ctx.declare name signature).2.options = ctx.options ∧
      (ctx.declare name signature).2.building = ctx.building := by
  unfold declare
  simp only
  split <;> exact ⟨rfl, rfl, rfl, rfl⟩

/-- Declaring a registered name changes nothing. -/
theorem declare_of_some (h : ctx.program.lookup name = some id) (signature : Signature) :
    ctx.declare name signature = (id, ctx) := by
  unfold declare
  rw [Program.declare_of_some h]
  simp only [Nat.lt_irrefl, if_false]

theorem declare_grows (ctx : Context) (name : String) (signature : Signature) :
    ctx.Grows (ctx.declare name signature).2 := by
  obtain ⟨-, hprogram, hoptions, hbuilding⟩ := declare_eq ctx name signature
  refine ⟨hprogram ▸ Program.declare_grows .., hoptions, hbuilding, fun id _ f hf => ?_⟩
  rw [hprogram]
  exact Program.function?_declare hf name signature

theorem lookup_declare (ctx : Context) (name : String) (signature : Signature) :
    (ctx.declare name signature).2.program.lookup name = some (ctx.declare name signature).1 := by
  obtain ⟨hid, hprogram, -⟩ := declare_eq ctx name signature
  rw [hid, hprogram]
  exact Program.lookup_declare ..

/-- A callee that is resolved is registered, and was declared for it at most. -/
theorem resolve_eq_ok (h : ctx.resolve name arity = .ok (id, ctx')) :
    ctx'.program.lookup name = some id ∧
      (ctx' = ctx ∨ ctx' = (ctx.declare name ⟨arity⟩).2) := by
  unfold resolve at h
  split at h
  · have heq : ctx.declare name ⟨arity⟩ = (id, ctx') := Except.ok.inj h
    have hlookup := lookup_declare ctx name ⟨arity⟩
    rw [heq] at hlookup ⊢
    exact ⟨hlookup, .inr rfl⟩
  · unfold get at h
    cases hlookup : ctx.program.lookup name with
    | none =>
      rw [hlookup] at h
      cases h
    | some found =>
      rw [hlookup] at h
      cases h
      exact ⟨hlookup, .inl rfl⟩

theorem resolve_grows (h : ctx.resolve name arity = .ok (id, ctx')) : ctx.Grows ctx' := by
  rcases (resolve_eq_ok h).2 with rfl | rfl
  · exact .refl ctx'
  · exact declare_grows ..

/-- A number that has been claimed belongs to a declaration, which nothing else
    has claimed. -/
theorem claim_eq_ok (h : ctx.claim name arity = .ok (id, ctx')) :
    (ctx.declare name ⟨arity⟩).1 = id ∧ id ∉ ctx.building ∧
      (∃ f, (ctx.declare name ⟨arity⟩).2.program.function? id = some f ∧
        f.isDeclaration = true) ∧
      ctx' = { (ctx.declare name ⟨arity⟩).2 with building := id :: ctx.building } := by
  obtain ⟨-, -, -, hbuilding⟩ := declare_eq ctx name ⟨arity⟩
  unfold claim at h
  generalize ctx.declare name ⟨arity⟩ = declared at *
  obtain ⟨id', ctx₁⟩ := declared
  simp only at h
  split at h
  · cases h
  · rename_i hfree
    cases h
    simp only [Bool.or_eq_true, decide_eq_true_eq, Bool.not_eq_true', not_or, Bool.not_eq_false,
      Option.any_eq_true] at hfree
    obtain ⟨hnot, f, hf, hd⟩ := hfree
    exact ⟨rfl, hbuilding ▸ hnot, ⟨f, hf, hd⟩, by rw [hbuilding]⟩

end Context

/-! ## Lowering -/

namespace Lower

variable {s s' : Workspace} {v : Value} {vs : List Value} {u : Unit}

/-- Whatever a step of lowering does, the registry grows. -/
def StepGrows {α : Type} (x : Lower α) : Prop :=
  ∀ s a s', x s = .ok a s' → s.context.Grows s'.context

theorem build_grows {α : Type} (x : Build α) : StepGrows (build x) := by
  intro s a s' h
  obtain ⟨b, -, rfl⟩ := build_eq_ok.mp h
  exact .refl s.context

theorem resolve_grows (name : String) (arity : Nat) : StepGrows (resolve name arity) := by
  intro s id s' h
  obtain ⟨ctx, hctx, rfl⟩ := resolve_eq_ok.mp h
  exact Context.resolve_grows hctx

theorem buildFunction_grows {name : String} {params : List String} {body : Lower Unit}
    (hbody : StepGrows (body >>= fun _ => fallOff)) {ctx ctx' : Context} {id : FunctionId}
    (h : Context.buildFunction name params body ctx = .ok id ctx') : ctx.Grows ctx' := by
  cases hclaim : ctx.claim name params.length with
  | error e =>
    rw [buildFunction_of_refused hclaim] at h
    cases h
  | ok r =>
    obtain ⟨id', ctx₁⟩ := r
    rw [buildFunction_of_claim hclaim] at h
    cases hrun : (body >>= fun _ => fallOff) (.start ctx₁ name params) with
    | error e s =>
      rw [hrun] at h
      cases h
    | ok u s =>
      rw [hrun] at h
      cases h
      have hgrows := Context.declare_grows ctx name ⟨params.length⟩
      have hbody := hbody _ _ _ hrun
      obtain ⟨-, hfree, ⟨f, hf, hd⟩, rfl⟩ := Context.claim_eq_ok hclaim
      -- The function has been claimed, so its body was built beside the declaration.
      have hclaimed : s.context.program.function? id = some f :=
        hbody.claimed id (List.mem_cons_self ..) f hf
      have hbuilding : s.context.building = id :: ctx.building := hbody.building
      refine ⟨?_, hbody.options.trans hgrows.options, ?_, fun other hother g hg => ?_⟩
      · refine (hgrows.program.trans hbody.program).trans ?_
        exact Program.define_grows hclaimed hd _
      · change s.context.building.filter (· ≠ id) = ctx.building
        have hkept : ctx.building.filter (· ≠ id) = ctx.building := by
          refine List.filter_eq_self.mpr fun other hother => ?_
          simpa using fun heq : other = id => hfree (heq ▸ hother)
        rw [hbuilding, List.filter_cons_of_neg (by simp), hkept]
      · have hne : other ≠ id := fun heq => hfree (heq ▸ hother)
        have hg' := hbody.claimed other (List.mem_cons_of_mem _ hother) g
          (hgrows.claimed _ hother _ hg)
        change (s.context.program.define id _).function? other = some g
        rw [Program.function?_define_ne hne]
        exact hg'

/-- Whatever is lowered, nested functions included, lets the registry grow. -/
theorem grows_stepRules : StepRules StepGrows where
  pure a s a' s' h := by
    obtain ⟨-, rfl⟩ := Effect.pure_eq_ok.mp h
    exact .refl s.context
  bind hx hf s b s'' h := by
    obtain ⟨a, s', ha, hb⟩ := Effect.bind_eq_ok.mp h
    exact (hx s a s' ha).trans (hf a s' b s'' hb)
  inspect hf s := hf s.builder s
  locating n hx s a s' h := hx s a s' (locating_eq_ok.mp h)
  unsupported _ _ _ _ h := absurd h unsupported_ne_ok
  build _ := build_grows _
  note e s _ s' h := by
    cases h
    exact .note s.context e
  resolve := resolve_grows
  function name params _ hbody s id s' h := by
    obtain ⟨ctx, hctx, rfl⟩ := nested_eq_ok.mp h
    exact buildFunction_grows hbody hctx

theorem grows_exprRules : ExprRules StepGrows := StepRules.exprRules grows_stepRules

theorem expr_grows (n : Node) : StepGrows (expr n) := ExprRules.expr grows_exprRules n

theorem asInt_grows (n : Node) : StepGrows (asInt (expr n)) :=
  ExprRules.asInt grows_exprRules (expr_grows n)

theorem join_grows (op : BinaryOp) (first : Value) (rest : List Value) :
    StepGrows (join op first rest) := ExprRules.join grows_exprRules op first rest

theorem conditions_grows (ns : List Node) : StepGrows (conditions ns) :=
  ExprRules.conditions grows_exprRules fun n _ => expr_grows n

theorem arguments_grows (ns : List Node) : StepGrows (arguments ns) :=
  ExprRules.arguments grows_exprRules fun n _ => expr_grows n

theorem condition_grows (n : Node) : StepGrows (condition n) :=
  ExprRules.condition grows_exprRules n

theorem fallThrough_grows (join : Option BlockId) : StepGrows (fallThrough join) :=
  StepRules.fallThrough grows_stepRules join

theorem statement_grows (n : Node) : StepGrows (statement n) :=
  StepRules.statement grows_stepRules n

theorem block_grows (ns : List Node) : StepGrows (block ns) :=
  StepRules.block grows_stepRules fun n _ => statement_grows n

theorem elseClause_grows (ns : List Node) : StepGrows (elseClause ns) :=
  StepRules.elseClause grows_stepRules fun n _ => statement_grows n

end Lower

end Blockform
