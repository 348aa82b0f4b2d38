-- SUMMARY: The functions that a tree defines are those of its program that have a body (`Program.Covers`).
import Blockform.Proofs.FirstViolation
import Blockform.Proofs.Meaning

/-!
# Definitions and functions

A function of the finished program has a body exactly if the tree defines a
function of its name, and then the body is what lowering has made of the
definition (`Compiled`). That a definition is compiled follows the recursion of
lowering. That there are no other bodies is read off the walk, which begins each
function that gets one.
-/

namespace Blockform

open Effect

variable {p p' : Program} {options : LowerOptions}

/-! ## Compiled definitions -/

/-- The function of the name has the body that lowering has made of the
    definition, and the program came about from the state in which that was
    done. -/
inductive Compiled (p : Program) (d : Definition) : Prop where
  | mk {id : FunctionId} {ctx : Context} {s s' : Workspace} (hid : p.lookup d.name = some id)
    (hbody : Lower.block d.body (.start ctx d.name d.params) = .ok () s)
    (hcursor : s.builder.HasCursor)
    (hend : (s.builder.IsOpen ∧ s' = s.closed (.ret (.int 0))) ∨ (¬ s.builder.IsOpen ∧ s' = s))
    (hfunction : p.function? id = some { s'.builder.finish with name := d.name })
    (hgrows : s.context.program.Grows p)

/-- The end of a function leaves it with a block. -/
theorem Lower.ended_length {s s' : Workspace} (hcursor : s.builder.HasCursor)
    (hend : (s.builder.IsOpen ∧ s' = s.closed (.ret (.int 0))) ∨ (¬ s.builder.IsOpen ∧ s' = s)) :
    0 < s'.builder.blocks.length := by
  rcases hend with ⟨hopen, rfl⟩ | ⟨-, rfl⟩
  · exact Nat.zero_lt_of_lt ((Builder.Framed.close hopen _).hasCursor hcursor)
  · exact Nat.zero_lt_of_lt hcursor

theorem Compiled.mono {d : Definition} (h : Compiled p d) (hp : p.Grows p') : Compiled p' d := by
  cases h with
  | @mk id ctx s s' hid hbody hcursor hend hfunction hgrows =>
    obtain ⟨f, hf, -, hsame⟩ := hp.functions _ _ hfunction
    have hblocks : s'.builder.blocks ≠ [] :=
      List.ne_nil_of_length_pos (Lower.ended_length hcursor hend)
    rw [hsame (by simp [Function.isDeclaration, Builder.finish, hblocks])] at hf
    exact .mk (hp.lookup hid) hbody hcursor hend hf (hgrows.trans hp)

theorem buildFunction_compiled {name : String} {params : List String} {body : List Node}
    {ctx ctx' : Context} {id : FunctionId}
    (h : Context.buildFunction name params (Lower.block body) ctx = .ok id ctx') :
    Compiled ctx'.program ⟨name, params, body⟩ := by
  cases Lower.buildFunction_run h with
  | @mk ctx₁ s s' hclaim hrun hcursor hend =>
    have hlookup := Context.lookup_declare ctx name ⟨params.length⟩
    obtain ⟨rfl, -, ⟨f, hf, hdeclared⟩, rfl⟩ := Context.claim_eq_ok hclaim
    have hbody := Lower.block_grows _ _ _ _ hrun
    have hcontext : s'.context = s.context := by
      rcases hend with ⟨-, rfl⟩ | ⟨-, rfl⟩ <;> rfl
    obtain ⟨f', hf', hname, -⟩ := Program.lookup_eq_some.mp hlookup
    cases hf.symm.trans hf'
    -- The function was claimed, so it is still the declaration that it was.
    have hclaimed := hbody.claimed _ (List.mem_cons_self ..) f hf
    rw [← hcontext] at hclaimed
    have hdefined := Program.define_grows hclaimed hdeclared s'.builder.finish
    have hid : s'.context.program.lookup name = some (ctx.declare name ⟨params.length⟩).1 := by
      rw [hcontext]
      exact hbody.program.lookup hlookup
    refine .mk (hdefined.lookup hid) hrun hcursor hend ?_ ?_
    · have hself := Program.function?_define_self hclaimed s'.builder.finish
      rw [hname] at hself
      exact hself
    · rw [← hcontext]
      exact hdefined

namespace Lower

/-- What a step of lowering defines is compiled. -/
def StepCompiles (x : Lower Unit) (defs : List Definition) : Prop :=
  ∀ s s', x s = .ok () s' → ∀ d ∈ defs, Compiled s'.context.program d

theorem block_compiles {ns : List Node}
    (hns : ∀ n ∈ ns, StepCompiles (statement n) n.definitions) :
    StepCompiles (block ns) (blockDefinitions ns) := by
  induction ns with
  | nil => exact fun _ _ _ => nofun
  | cons n rest ih =>
    intro s s' h d hd
    rw [List.forall_mem_cons] at hns
    obtain ⟨s₁, s₂, -, hn, hrest⟩ := block_cons_eq_ok.mp h
    rcases List.mem_append.mp hd with hd | hd
    · have hgrows := block_grows _ _ _ _ hrest
      exact (hns.1 _ _ hn d hd).mono hgrows.program
    · exact ih hns.2 _ _ hrest d hd

theorem elseClause_compiles {ns : List Node}
    (hns : ∀ n ∈ ns, StepCompiles (statement n) n.definitions) :
    StepCompiles (elseClause ns) (elseDefinitions ns) := by
  intro s s' h d hd
  cases ns with
  | nil => cases hd
  | cons n rest =>
    rw [elseClause_cons] at h
    exact hns n (List.mem_cons_self ..) _ _ h d hd

/-- A function that is defined inside of another one is compiled with it. -/
theorem functionDef_compiles {name : String} {params : List String} {body : List Node}
    {ctx ctx' : Context} {id : FunctionId}
    (hbody : StepCompiles (block body) (blockDefinitions body))
    (h : Context.buildFunction name params (block body) ctx = .ok id ctx') :
    ∀ d ∈ ⟨name, params, body⟩ :: blockDefinitions body, Compiled ctx'.program d := by
  have hcompiled := buildFunction_compiled h
  refine List.forall_mem_cons.mpr ⟨hcompiled, fun d hd => ?_⟩
  cases hcompiled with
  | mk hid hrun hcursor hend hfunction hgrows => exact (hbody _ _ hrun d hd).mono hgrows

theorem statement_compiles (n : Node) : StepCompiles (statement n) n.definitions := by
  induction n using Node.parts_induction with
  | step n ih =>
    obtain ⟨kind, location, span⟩ := n
    intro s s' hrun d hd
    cases statement_run hrun with
    | assign => cases hd
    | expr => cases hd
    | ret => cases hd
    | retNone => cases hd
    | ifElse h =>
      cases branch_run h with
      | @mk s₁ s₂ s₃ s₄ s₅ cond join join' hcond hopen hthen hjoin helse hjoin' =>
        have hgrows := fallThrough_grows _ _ _ _ hjoin'
        have hcontext : (join'.elim s₅ s₅.movedTo).context = s₅.context := by
          cases join' <;> rfl
        rw [hcontext]
        rcases List.mem_append.mp hd with hd | hd
        · have hrest := elseClause_grows _ _ _ _ helse
          have hthen' := (fallThrough_grows _ _ _ _ hjoin).trans (hrest.trans hgrows)
          refine Compiled.mono ?_ hthen'.program
          exact block_compiles (fun n hn => ih n (by simp [Kind.parts, hn])) _ _ hthen d hd
        · refine Compiled.mono ?_ hgrows.program
          exact elseClause_compiles (fun n hn => ih n (by simp [Kind.parts, hn])) _ _ helse d hd
    | whileLoop h =>
      cases loop_run h with
      | @mk s₁ s₂ s₃ cond hopen hcond hbody hcursor hback hexit =>
        have hcontext : s₃.context = s₂.context := by
          rcases hback with ⟨-, rfl⟩ | ⟨-, rfl⟩ <;> rfl
        change Compiled s₃.context.program d
        rw [hcontext]
        exact block_compiles (fun n hn => ih n (by simp [Kind.parts, hn])) _ _ hbody d hd
    | functionDef h => exact functionDef_compiles (block_compiles ih) h d hd
    | value h => cases h <;> cases hd

end Lower

/-! ## Names -/

/-- The function that a request begins. -/
def Request.enters : Request → Option String
  | .enter name _ => some name
  | .inside _ request => request.enters
  | .refused _ | .read _ | .bind _ | .call _ | .leave => none

/-- The request concerns no body but the innermost. -/
def Request.isPlain : Request → Bool
  | .inside _ request => request.isPlain
  | .enter .. | .leave => false
  | .refused _ | .read _ | .bind _ | .call _ => true

theorem Request.enters_of_isPlain {r : Request} (h : r.isPlain = true) : r.enters = none := by
  induction r with
  | inside n r ih => exact ih h
  | enter name params => cases h
  | _ => rfl

theorem filterMap_enters_of_isPlain {rs : List Request} (h : rs.all Request.isPlain = true) :
    rs.filterMap Request.enters = [] :=
  List.filterMap_eq_nil_iff.mpr fun r hr => r.enters_of_isPlain (List.all_eq_true.mp h r hr)

theorem filterMap_enters_inside (n : Node) (rs : List Request) :
    (rs.map (.inside n)).filterMap Request.enters = rs.filterMap Request.enters := by
  rw [List.filterMap_map]
  rfl

theorem all_isPlain_inside (n : Node) (rs : List Request) :
    (rs.map (.inside n)).all Request.isPlain = rs.all Request.isPlain := by
  rw [List.all_map]
  rfl

theorem allValueAsks_isPlain {ns : List Node}
    (hns : ∀ n ∈ ns, n.valueAsks.all Request.isPlain = true) :
    (allValueAsks ns).all Request.isPlain = true := by
  induction ns with
  | nil => rfl
  | cons n rest ih =>
    rw [List.forall_mem_cons] at hns
    rw [allValueAsks, List.all_append, hns.1, ih hns.2]
    rfl

theorem Kind.valueAsks_isPlain {k : Kind}
    (hparts : ∀ n ∈ k.parts, n.valueAsks.all Request.isPlain = true) :
    k.valueAsks.all Request.isPlain = true := by
  cases k with
  | unaryOp op operand =>
    cases op with
    | uSub => exact hparts operand (by simp [parts])
    | _ => rfl
  | binOp left op right =>
    rw [valueAsks]
    split
    · have hleft := hparts left (by simp [parts])
      have hright := hparts right (by simp [parts])
      simp only [List.all_append, hleft, hright]
      rfl
    · rfl
  | boolOp op values =>
    cases values with
    | nil => rfl
    | cons first rest =>
      change (allValueAsks (first :: rest)).all _ = true
      exact allValueAsks_isPlain fun n hn => hparts n (by simpa [parts] using hn)
  | compare left ops rights =>
    rcases ops with - | ⟨op, - | ⟨op', ops⟩⟩
    · rfl
    · rcases rights with - | ⟨right, - | ⟨right', rights⟩⟩
      · rfl
      · rw [valueAsks]
        split
        · simp only [List.all_append, hparts left (by simp [parts]),
            hparts right (by simp [parts])]
          rfl
        · rfl
      · rfl
    · rfl
  | call func args keywords =>
    cases keywords with
    | cons keyword rest => rfl
    | nil =>
      obtain ⟨kind, location, span⟩ := func
      cases kind with
      | name id => exact allValueAsks_isPlain fun n hn => hparts n (by simp [parts, hn])
      | _ => rfl
  | _ => rfl

/-- An expression begins no function, and leaves none. -/
theorem Node.valueAsks_isPlain (n : Node) : n.valueAsks.all Request.isPlain = true := by
  induction n using Node.parts_induction with
  | step n ih =>
    obtain ⟨kind, location, span⟩ := n
    exact (all_isPlain_inside _ _).trans (Kind.valueAsks_isPlain ih)

theorem Node.valueAsks_enters (n : Node) : n.valueAsks.filterMap Request.enters = [] :=
  filterMap_enters_of_isPlain n.valueAsks_isPlain

theorem blockAsks_enters {ns : List Node}
    (hns : ∀ n ∈ ns, n.asks.filterMap Request.enters = n.definitions.map Definition.name) :
    (blockAsks ns).filterMap Request.enters = (blockDefinitions ns).map Definition.name := by
  induction ns with
  | nil => rfl
  | cons n rest ih =>
    rw [List.forall_mem_cons] at hns
    rw [blockAsks, blockDefinitions, List.filterMap_append, List.map_append, hns.1, ih hns.2]

theorem elseAsks_enters {ns : List Node}
    (hns : ∀ n ∈ ns, n.asks.filterMap Request.enters = n.definitions.map Definition.name) :
    (elseAsks ns).filterMap Request.enters = (elseDefinitions ns).map Definition.name := by
  cases ns with
  | nil => rfl
  | cons n rest => exact hns n (List.mem_cons_self ..)

theorem Kind.asks_enters {k : Kind}
    (hparts : ∀ n ∈ k.parts, n.asks.filterMap Request.enters = n.definitions.map Definition.name) :
    k.asks.filterMap Request.enters = k.definitions.map Definition.name := by
  have hvalue : k.valueAsks.filterMap Request.enters = [] :=
    filterMap_enters_of_isPlain (Kind.valueAsks_isPlain fun n _ => n.valueAsks_isPlain)
  cases k with
  | assign targets value =>
    match targets with
    | [] => rfl
    | [⟨kind, location, span⟩] =>
      cases kind with
      | name id =>
        change (value.valueAsks ++ [Request.bind id]).filterMap _ = []
        rw [List.filterMap_append, value.valueAsks_enters]
        rfl
      | _ => rfl
    | ⟨kind, location, span⟩ :: target :: rest => cases kind <;> rfl
  | expr value => exact value.valueAsks_enters
  | ret value =>
    cases value with
    | none => rfl
    | some value => exact value.valueAsks_enters
  | ifElse test body orelse =>
    have hbody := blockAsks_enters fun n (hn : n ∈ body) => hparts n (by simp [parts, hn])
    have horelse := elseAsks_enters fun n (hn : n ∈ orelse) => hparts n (by simp [parts, hn])
    rw [asks, definitions, List.filterMap_append, List.filterMap_append, List.map_append,
      test.valueAsks_enters, hbody, horelse]
    rfl
  | whileLoop test body orelse =>
    cases orelse with
    | cons n rest => rfl
    | nil =>
      have hbody := blockAsks_enters fun n (hn : n ∈ body) => hparts n (by simp [parts, hn])
      rw [asks, definitions, List.filterMap_append, test.valueAsks_enters, hbody]
      rfl
  | functionDef name params body =>
    have hbody := blockAsks_enters fun n (hn : n ∈ body) => hparts n (by simp [parts, hn])
    change name :: (blockAsks body ++ [Request.leave]).filterMap Request.enters = _
    rw [List.filterMap_append, hbody, definitions]
    simp [Request.enters]
  | augAssign target op value => rfl
  | module body => rfl
  | forLoop target iter body orelse => rfl
  | pass => rfl
  | breakLoop => rfl
  | continueLoop => rfl
  | _ => exact hvalue

/-- A node begins the functions that it defines, in order. -/
theorem Node.asks_enters (n : Node) :
    n.asks.filterMap Request.enters = n.definitions.map Definition.name := by
  induction n using Node.parts_induction with
  | step n ih =>
    obtain ⟨kind, location, span⟩ := n
    exact (filterMap_enters_inside _ _).trans (Kind.asks_enters ih)

namespace Walk

variable {w w' : Walk} {r : Request} {name : String}

theorem mem_register_iff (w : Walk) (other : String) :
    name ∈ (w.register other).registered ↔ name ∈ w.registered ∨ name = other := by
  unfold register
  split
  · rename_i hmem
    exact ⟨.inl, fun h => h.elim id fun heq => heq ▸ hmem⟩
  · simp

/-- A step begins the function that its request enters, and registers the one that
    it mentions. -/
theorem step_names (h : w.step options r = .ok w') :
    (name ∈ w'.begun ↔ name ∈ w.begun ∨ r.enters = some name) ∧
      (name ∈ w'.registered ↔ name ∈ w.registered ∨ r.mentions = some name) := by
  induction r with
  | refused what => cases h
  | read other =>
    simp only [step] at h
    split at h <;> cases h
    simp [Request.enters, Request.mentions]
  | bind other =>
    cases h
    unfold bind
    split <;> simp [Request.enters, Request.mentions]
  | call other =>
    simp only [step] at h
    split at h
    · rename_i hmem
      cases h
      simp only [Request.enters, Request.mentions, reduceCtorEq, or_false, Option.some.injEq,
        true_and]
      exact ⟨.inl, fun h => h.elim id fun heq => heq ▸ hmem⟩
    · split at h <;> cases h
      simp [register_begun, mem_register_iff, Request.enters, Request.mentions, eq_comm]
  | enter other params =>
    simp only [step] at h
    split at h <;> cases h
    simp [enter, claim, mem_register_iff, Request.enters, Request.mentions, or_comm, eq_comm]
  | leave =>
    cases h
    unfold leave
    split <;> simp [Request.enters, Request.mentions]
  | inside n r ih =>
    rw [step] at h
    cases hr : w.step options r with
    | error e =>
      rw [hr] at h
      cases h
    | ok w₁ =>
      rw [hr] at h
      cases h
      exact ih hr

/-- A walk begins what its requests enter, registers what they mention, and
    nothing else. -/
theorem run_names {rs : List Request} (h : w.run options rs = .ok w') :
    (name ∈ w'.begun ↔ name ∈ w.begun ∨ name ∈ rs.filterMap Request.enters) ∧
      (name ∈ w'.registered ↔
        name ∈ w.registered ∨ name ∈ rs.filterMap Request.mentions) := by
  induction rs generalizing w with
  | nil =>
    cases h
    simp
  | cons r rest ih =>
    cases hstep : w.step options r with
    | error e =>
      rw [run_cons_of_error hstep] at h
      cases h
    | ok w₁ =>
      rw [run_cons_of_ok hstep] at h
      obtain ⟨hbegun, hregistered⟩ := ih h
      rw [(step_names hstep).1] at hbegun
      rw [(step_names hstep).2] at hregistered
      rw [hbegun, hregistered, List.filterMap_cons, List.filterMap_cons]
      constructor
      · cases r.enters <;> simp [or_assoc, eq_comm]
      · cases r.mentions <;> simp [or_assoc, eq_comm]

theorem mem_foldl_register (w : Walk) (names : List String) :
    name ∈ (names.foldl register w).registered ↔ name ∈ w.registered ∨ name ∈ names := by
  induction names generalizing w with
  | nil => simp
  | cons other rest ih => rw [List.foldl_cons, ih, mem_register_iff, List.mem_cons, or_assoc]

/-- The names that a walk through a module has registered at its end. -/
theorem mem_registered {body : List Node}
    (h : run options (.start options) (blockAsks body) = .ok w) :
    name ∈ w.registered ↔ name ∈ moduleNames body options := by
  rw [(run_names h).2]
  simp [start, claim, mem_register_iff, mem_foldl_register, moduleNames, or_assoc]

/-- The functions that a walk through a module has begun at its end. -/
theorem mem_begun {body : List Node} (h : run options (.start options) (blockAsks body) = .ok w) :
    name ∈ w.begun ↔ ∃ d ∈ moduleDefinitions body options, d.name = name := by
  rw [(run_names h).1, blockAsks_enters fun n _ => n.asks_enters]
  simp [start, claim, foldl_register_begun, moduleDefinitions, eq_comm]

end Walk

/-! ## Programs -/

/-- The functions of a program are those of some names: the definitions among
    them are compiled, and the others have no body. -/
structure Program.Covers (p : Program) (defs : List Definition) : Prop where
  compiled : ∀ d ∈ defs, Compiled p d
  declared : ∀ name id, p.lookup name = some id → (∀ d ∈ defs, d.name ≠ name) →
    ∃ f, p.function? id = some f ∧ f.name = name ∧ f.blocks = []

/-- What lowering gives is the program of a module. -/
theorem lower_module {tree : Node} (h : lower tree options = .ok p) :
    ∃ body location span, tree = ⟨.module body, location, span⟩ := by
  obtain ⟨kind, location, span⟩ := tree
  cases kind with
  | module body => exact ⟨body, location, span, rfl⟩
  | _ => cases h

/-- A module is lowered exactly if a walk through it comes to its end. -/
theorem lower_module_eq_ok {body : List Node} {location : Option Location} {span : Option Span} :
    lower ⟨.module body, location, span⟩ options = .ok p ↔
      ∃ w id ctx, Walk.run options (.start options) (blockAsks body) = .ok w ∧
        Context.lowerModule body (.start options) = .ok id ctx ∧ w.Registers ctx ∧
        p = ctx.program := by
  have hmodule := Context.lowerModule_follows body options
  cases hrun : Walk.run options (.start options) (blockAsks body) with
  | error e =>
    rw [hrun] at hmodule
    obtain ⟨ctx, hfail⟩ := hmodule
    rw [lower_of_error hfail]
    simp
  | ok w =>
    rw [hrun] at hmodule
    obtain ⟨id, ctx, hok, hw⟩ := hmodule
    rw [lower_of_ok hok]
    constructor
    · intro h
      cases h
      exact ⟨w, id, ctx, rfl, hok, hw, rfl⟩
    · rintro ⟨-, id', ctx', -, hok', -, rfl⟩
      cases hok.symm.trans hok'
      rfl

/-- Lowering compiles what a module defines, and declares the other names. -/
theorem lower_covers {body : List Node} {location : Option Location} {span : Option Span}
    (h : lower ⟨.module body, location, span⟩ options = .ok p) :
    p.Covers (moduleDefinitions body options) ∧
      ∀ name, p.lookup name = none ↔ name ∉ moduleNames body options := by
  obtain ⟨w, id, ctx, hrun, hok, hw, rfl⟩ := lower_module_eq_ok.mp h
  have hcompiled := Lower.functionDef_compiles
    (Lower.block_compiles fun n _ => Lower.statement_compiles n) hok
  refine ⟨⟨hcompiled, fun name id hid hother => ?_⟩, fun name => ?_⟩
  · obtain ⟨f, hf, rfl, -⟩ := Program.lookup_eq_some.mp hid
    refine ⟨f, hf, rfl, ?_⟩
    have hbegun : f.name ∉ w.begun := fun hmem => by
      obtain ⟨d, hd, hname⟩ := (Walk.mem_begun hrun).mp hmem
      exact hother d hd hname
    have hbody := mt (hw.busy id f hf).mpr hbegun
    rw [not_or, Bool.not_eq_false] at hbody
    exact List.isEmpty_iff.mp hbody.1
  · rw [hw.lookup_eq_none, Walk.mem_registered hrun]

/-! ## Functions with a body -/

/-- The function is what lowering has built for a definition. -/
inductive Function.Built (f : Function) : Prop where
  | mk {d : Definition} {ctx : Context} {s s' : Workspace}
    (hbody : Lower.block d.body (.start ctx d.name d.params) = .ok () s)
    (hcursor : s.builder.HasCursor)
    (hend : (s.builder.IsOpen ∧ s' = s.closed (.ret (.int 0))) ∨ (¬ s.builder.IsOpen ∧ s' = s))
    (hfunction : f = { s'.builder.finish with name := d.name })

/-- No two functions of a lowered program have one name. -/
theorem lower_distinct {tree : Node} (h : lower tree options = .ok p) :
    (p.functions.map Function.name).Nodup := by
  obtain ⟨body, location, span, rfl⟩ := lower_module h
  obtain ⟨w, id, ctx, -, -, hw, rfl⟩ := lower_module_eq_ok.mp h
  rw [hw.names]
  exact hw.distinct

/-- With distinct names, a function is found under its own. -/
theorem Program.lookup_name (hp : (p.functions.map Function.name).Nodup) {id : FunctionId}
    {f : Function} (hf : p.function? id = some f) : p.lookup f.name = some id := by
  refine lookup_eq_some.mpr ⟨f, hf, rfl, fun j g hj hg hname => ?_⟩
  have hgi : (p.functions.map Function.name)[id.val]? = some f.name := by
    rw [List.getElem?_map, show p.functions[id.val]? = some f from hf, Option.map_some]
  have hgj : (p.functions.map Function.name)[j]? = some f.name := by simp [hg, hname]
  have hlt := (List.getElem?_eq_some_iff.mp hgj).1
  have heq : j = id.val := (List.getElem?_inj hlt hp).mp (hgj.trans hgi.symm)
  exact Nat.ne_of_lt hj heq

/-- Every function of a lowered program that has a body was built for a
    definition. -/
theorem lower_built {tree : Node} (h : lower tree options = .ok p) {f : Function}
    (hf : f ∈ p.functions) (hbody : f.blocks ≠ []) : f.Built := by
  obtain ⟨i, hi⟩ := List.mem_iff_getElem?.mp hf
  have hfunction : p.function? ⟨i⟩ = some f := hi
  have hid := Program.lookup_name (lower_distinct h) hfunction
  obtain ⟨body, location, span, rfl⟩ := lower_module h
  obtain ⟨hcovers, -⟩ := lower_covers h
  by_cases hdefined : ∃ d ∈ moduleDefinitions body options, d.name = f.name
  · obtain ⟨d, hd, hname⟩ := hdefined
    cases hcovers.compiled d hd with
    | mk hid' hrun hcursor hend hfunction' hgrows =>
      rw [hname] at hid'
      cases hid.symm.trans hid'
      cases hfunction.symm.trans hfunction'
      exact .mk hrun hcursor hend rfl
  · obtain ⟨g, hg, -, hdeclared⟩ :=
      hcovers.declared f.name ⟨i⟩ hid fun d hd hname => hdefined ⟨d, hd, hname⟩
    cases hfunction.symm.trans hg
    exact absurd hdeclared hbody

end Blockform
