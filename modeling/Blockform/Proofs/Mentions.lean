-- SUMMARY: The functions of a lowered program, in the order in which its tree first mentions them (`blockMentions`): which have a body, and how many parameters each has.
import Blockform.Proofs.Compiling
import Mathlib.Data.List.Nodup

/-!
# The order of functions

A function is registered the first time that it is mentioned: by a definition
before what is inside of it, and by a call before the arguments. So the functions
of a program are listed by what the tree mentions, the first mention of each name
being the one that counts (`Program.Lists`). Its number of parameters is that of
the first mention as well, until a body is attached to it.
-/

namespace Blockform

/-! ## Mentions -/

/-- A function that is mentioned: it is called with a number of arguments, or
    defined with a number of parameters. -/
inductive Mention where
  | called (name : String) (arguments : Nat)
  | defined (name : String) (parameters : Nat)
deriving DecidableEq

namespace Mention

def name : Mention → String
  | .called name _ => name
  | .defined name _ => name

/-- The number of parameters that the function is declared with, if it is new. -/
def arity : Mention → Nat
  | .called _ arguments => arguments
  | .defined _ parameters => parameters

/-- Is the function called, and not defined? -/
def isCall : Mention → Bool
  | .called .. => true
  | .defined .. => false

end Mention

mutual

/-- The functions that a node mentions in the place of an expression. -/
def Node.valueMentions : Node → List Mention
  | ⟨kind, _, _⟩ => kind.valueMentions

/-- The functions that a kind mentions in the place of an expression: that of a
    call before those of its arguments. -/
def Kind.valueMentions : Kind → List Mention
  | .unaryOp _ operand => operand.valueMentions
  | .binOp left _ right => left.valueMentions ++ right.valueMentions
  | .boolOp _ values => allValueMentions values
  | .compare left _ comparators => left.valueMentions ++ allValueMentions comparators
  | .call ⟨.name id, _, _⟩ args _ => .called id args.length :: allValueMentions args
  | _ => []

/-- The functions that nodes mention in the place of expressions, from the left. -/
def allValueMentions : List Node → List Mention
  | [] => []
  | n :: rest => n.valueMentions ++ allValueMentions rest

end

mutual

/-- The functions that a node mentions in the place of a statement. -/
def Node.mentions : Node → List Mention
  | ⟨kind, _, _⟩ => kind.mentions

/-- The functions that a kind mentions in the place of a statement: that of a
    definition before those in its body. -/
def Kind.mentions : Kind → List Mention
  | .assign _ value => value.valueMentions
  | .expr value => value.valueMentions
  | .ret (some value) => value.valueMentions
  | .ifElse test body orelse => test.valueMentions ++ (blockMentions body ++ elseMentions orelse)
  | .whileLoop test body [] => test.valueMentions ++ blockMentions body
  | .functionDef name params body => .defined name params.length :: blockMentions body
  | kind => kind.valueMentions

/-- The functions that statements mention, whether or not they are reached. -/
def blockMentions : List Node → List Mention
  | [] => []
  | n :: rest => n.mentions ++ blockMentions rest

/-- The functions that an `else` clause mentions: only its first statement counts. -/
def elseMentions : List Node → List Mention
  | [] => []
  | n :: _ => n.mentions

end

/-- The functions that a tree mentions: the builtins, the entry function, and what
    the statements mention. -/
def moduleMentions (body : List Node) (options : LowerOptions) : List Mention :=
  options.builtins.map (.called · 1) ++ .defined options.entryName 0 :: blockMentions body

/-! ## Definitions among mentions -/

theorem allValueMentions_isCall {ns : List Node}
    (hns : ∀ n ∈ ns, n.valueMentions.all Mention.isCall = true) :
    (allValueMentions ns).all Mention.isCall = true := by
  induction ns with
  | nil => rfl
  | cons n rest ih =>
    rw [List.forall_mem_cons] at hns
    rw [allValueMentions, List.all_append, hns.1, ih hns.2]
    rfl

theorem Kind.valueMentions_isCall {k : Kind}
    (hparts : ∀ n ∈ k.parts, n.valueMentions.all Mention.isCall = true) :
    k.valueMentions.all Mention.isCall = true := by
  cases k with
  | unaryOp op operand => exact hparts operand (by simp [parts])
  | binOp left op right =>
    rw [valueMentions, List.all_append, hparts left (by simp [parts]),
      hparts right (by simp [parts])]
    rfl
  | boolOp op values =>
    exact allValueMentions_isCall fun n hn => hparts n (by simp [parts, hn])
  | compare left ops rights =>
    have hrights := allValueMentions_isCall fun n (hn : n ∈ rights) =>
      hparts n (by simp [parts, hn])
    rw [valueMentions, List.all_append, hparts left (by simp [parts]), hrights]
    rfl
  | call func args keywords =>
    obtain ⟨kind, location, span⟩ := func
    cases kind with
    | name id => exact allValueMentions_isCall fun n hn => hparts n (by simp [parts, hn])
    | _ => rfl
  | _ => rfl

/-- An expression defines no function. -/
theorem Node.valueMentions_isCall (n : Node) : n.valueMentions.all Mention.isCall = true := by
  induction n using Node.parts_induction with
  | step n ih =>
    obtain ⟨kind, location, span⟩ := n
    exact Kind.valueMentions_isCall ih

/-- Each definition among the mentions is one of the tree. -/
def DefinedBy (ms : List Mention) (defs : List Definition) : Prop :=
  ∀ m ∈ ms, m.isCall = false → ∃ d ∈ defs, d.name = m.name

namespace DefinedBy

variable {ms ms' : List Mention} {defs defs' : List Definition}

theorem of_isCall (h : ms.all Mention.isCall = true) : DefinedBy ms defs := by
  intro m hm hdefined
  rw [List.all_eq_true.mp h m hm] at hdefined
  cases hdefined

theorem append (h : DefinedBy ms defs) (h' : DefinedBy ms' defs') :
    DefinedBy (ms ++ ms') (defs ++ defs') := by
  intro m hm hdefined
  rcases List.mem_append.mp hm with hm | hm
  · obtain ⟨d, hd, hname⟩ := h m hm hdefined
    exact ⟨d, List.mem_append_left _ hd, hname⟩
  · obtain ⟨d, hd, hname⟩ := h' m hm hdefined
    exact ⟨d, List.mem_append_right _ hd, hname⟩

/-- A value before mentions adds no definition. -/
theorem value (n : Node) (h : DefinedBy ms defs) : DefinedBy (n.valueMentions ++ ms) defs :=
  have hvalue : DefinedBy n.valueMentions [] := of_isCall n.valueMentions_isCall
  hvalue.append h

end DefinedBy

theorem blockMentions_definedBy {ns : List Node}
    (hns : ∀ n ∈ ns, DefinedBy n.mentions n.definitions) :
    DefinedBy (blockMentions ns) (blockDefinitions ns) := by
  induction ns with
  | nil => exact nofun
  | cons n rest ih =>
    rw [List.forall_mem_cons] at hns
    exact hns.1.append (ih hns.2)

theorem elseMentions_definedBy {ns : List Node}
    (hns : ∀ n ∈ ns, DefinedBy n.mentions n.definitions) :
    DefinedBy (elseMentions ns) (elseDefinitions ns) := by
  cases ns with
  | nil => exact nofun
  | cons n rest => exact hns n (List.mem_cons_self ..)

theorem Node.mentions_definedBy (n : Node) : DefinedBy n.mentions n.definitions := by
  induction n using Node.parts_induction with
  | step n ih =>
    obtain ⟨kind, location, span⟩ := n
    have hvalue : DefinedBy kind.valueMentions kind.definitions :=
      .of_isCall (Kind.valueMentions_isCall fun n _ => n.valueMentions_isCall)
    cases kind with
    | assign targets value => exact .of_isCall value.valueMentions_isCall
    | expr value => exact .of_isCall value.valueMentions_isCall
    | ret value =>
      cases value with
      | none => exact hvalue
      | some value => exact .of_isCall value.valueMentions_isCall
    | ifElse test body orelse =>
      have hbody := blockMentions_definedBy fun n (hn : n ∈ body) => ih n (by simp [Kind.parts, hn])
      have horelse := elseMentions_definedBy fun n (hn : n ∈ orelse) =>
        ih n (by simp [Kind.parts, hn])
      exact (hbody.append horelse).value test
    | whileLoop test body orelse =>
      cases orelse with
      | cons n rest => exact hvalue
      | nil =>
        exact (blockMentions_definedBy fun n hn => ih n (by simp [Kind.parts, hn])).value test
    | functionDef name params body =>
      have hbody := blockMentions_definedBy ih
      intro m hm hdefined
      rcases List.mem_cons.mp hm with rfl | hm
      · exact ⟨_, List.mem_cons_self .., rfl⟩
      · obtain ⟨d, hd, hname⟩ := hbody m hm hdefined
        exact ⟨d, List.mem_cons_of_mem _ hd, hname⟩
    | _ => exact hvalue

/-! ## Programs -/

theorem eraseDups_append_of_mem {l : List String} {a : String} (h : a ∈ l) :
    (l ++ [a]).eraseDups = l.eraseDups := by
  have hremoved : [a].removeAll l = [] := by simpa [List.removeAll] using h
  rw [List.eraseDups_append, hremoved, List.eraseDups_nil, List.append_nil]

theorem eraseDups_append_of_not_mem {l : List String} {a : String} (h : a ∉ l) :
    (l ++ [a]).eraseDups = l.eraseDups ++ [a] := by
  have hkept : [a].removeAll l = [a] := by simpa [List.removeAll] using h
  rw [List.eraseDups_append, hkept]
  rfl

namespace Program

variable {p : Program} {ms : List Mention} {id : FunctionId}

/-- The functions are those of the mentions, in the order of the first mention of
    each. One without a body is declared as that mention says. -/
structure Lists (p : Program) (ms : List Mention) : Prop where
  names : p.functions.map Function.name = (ms.map Mention.name).eraseDups
  declared : ∀ f ∈ p.functions, f.isDeclaration = true →
    ∃ m, ms.find? (·.name = f.name) = some m ∧ f = .declaration f.name ⟨m.arity⟩

namespace Lists

theorem mem_names (h : p.Lists ms) {name : String} :
    name ∈ ms.map Mention.name ↔ ∃ f ∈ p.functions, f.name = name := by
  rw [← List.mem_eraseDups, ← h.names, List.mem_map]

theorem nil (h : p.Lists ms) : p.Lists (ms ++ []) := by
  rwa [List.append_nil]

/-- A later mention of a registered name does not count. -/
theorem known (h : p.Lists ms) {m : Mention} (hm : p.lookup m.name = some id) :
    p.Lists (ms ++ [m]) := by
  obtain ⟨f, hf, hname, -⟩ := lookup_eq_some.mp hm
  have hmem : m.name ∈ ms.map Mention.name :=
    h.mem_names.mpr ⟨f, List.mem_of_getElem? hf, hname⟩
  refine ⟨?_, fun g hg hdeclared => ?_⟩
  · rw [h.names, List.map_append]
    exact (eraseDups_append_of_mem hmem).symm
  · obtain ⟨m', hm', heq⟩ := h.declared g hg hdeclared
    exact ⟨m', by rw [List.find?_append, hm']; rfl, heq⟩

/-- A name is declared by its first mention. -/
theorem declare (h : p.Lists ms) (m : Mention) :
    (p.declare m.name ⟨m.arity⟩).2.Lists (ms ++ [m]) := by
  cases hlookup : p.lookup m.name with
  | some id =>
    rw [declare_of_some hlookup]
    exact h.known hlookup
  | none =>
    have hnew : m.name ∉ ms.map Mention.name := fun hmem => by
      obtain ⟨f, hf, hname⟩ := h.mem_names.mp hmem
      exact lookup_eq_none.mp hlookup f hf hname
    rw [declare_of_none hlookup]
    refine ⟨?_, fun g hg hdeclared => ?_⟩
    · rw [register_functions, List.map_append, h.names, List.map_append]
      exact (eraseDups_append_of_not_mem hnew).symm
    · rw [register_functions] at hg
      rcases List.mem_append.mp hg with hg | hg
      · obtain ⟨m', hm', heq⟩ := h.declared g hg hdeclared
        exact ⟨m', by rw [List.find?_append, hm']; rfl, heq⟩
      · rw [List.mem_singleton.mp hg]
        refine ⟨m, ?_, rfl⟩
        have hnone : ms.find? (·.name = m.name) = none := by
          refine List.find?_eq_none.mpr fun m' hm' => ?_
          simpa using fun heq : m'.name = m.name => hnew (List.mem_map.mpr ⟨m', hm', heq⟩)
        change (ms ++ [m]).find? (·.name = m.name) = some m
        rw [List.find?_append, hnone]
        simp

/-- A function that gets its body keeps its place. -/
theorem define (h : p.Lists ms) {body : Function} (hbody : body.isDeclaration = false) :
    (p.define id body).Lists ms := by
  refine ⟨(names_define ..).trans h.names, fun g hg hdeclared => ?_⟩
  obtain ⟨i, hi⟩ := List.mem_iff_getElem?.mp hg
  by_cases hid : (⟨i⟩ : FunctionId) = id
  · subst hid
    have hlt : i < p.functions.length := by
      have hlt := (List.getElem?_eq_some_iff.mp hi).1
      simpa [Program.define] using hlt
    have hget : p.function? ⟨i⟩ = some p.functions[i] := List.getElem?_eq_getElem hlt
    have hself := function?_define_self hget body
    cases hi.symm.trans hself
    exact absurd (hbody.symm.trans hdeclared) Bool.false_ne_true
  · have hother := (function?_define_ne hid body).symm.trans hi
    exact h.declared g (List.mem_of_getElem? hother) hdeclared

end Lists

/-- The builtins are declared with one parameter each. -/
theorem lists_withBuiltins (names : List String) :
    (Program.withBuiltins names).Lists (names.map (.called · 1)) := by
  have hfold (rest : List String) (p : Program) (ms : List Mention) (h : p.Lists ms) :
      (rest.foldl (fun p name => (p.declare name ⟨1⟩).2) p).Lists
        (ms ++ rest.map (.called · 1)) := by
    induction rest generalizing p ms with
    | nil => simpa using h
    | cons name rest ih =>
      have hrest := ih _ _ (h.declare (.called name 1))
      rwa [List.append_assoc] at hrest
  exact hfold names {} [] ⟨rfl, nofun⟩

end Program

/-! ## Lowering -/

namespace Lower

variable {α : Type} {s s' : Workspace} {v : Value} {vs : List Value} {a : α}
  {ms xs ys zs : List Mention}

/-- A step of lowering comes across mentions, in order. -/
def StepLists (x : Lower α) (xs : List Mention) : Prop :=
  ∀ ms s a s', x s = .ok a s' → s.context.program.Lists ms → s'.context.program.Lists (ms ++ xs)

theorem build_program {x : Build α} (h : build x s = .ok a s') :
    s'.context.program = s.context.program := by
  obtain ⟨b, -, rfl⟩ := build_eq_ok.mp h
  rfl

theorem join_program {op : BinaryOp} {w : Value} (h : join op v vs s = .ok w s') :
    s'.context.program = s.context.program := by
  induction vs generalizing v s with
  | nil =>
    obtain ⟨-, rfl⟩ := Effect.pure_eq_ok.mp h
    rfl
  | cons v' vs ih =>
    obtain ⟨acc, s₁, hbinary, hrest⟩ := join_cons_eq_ok.mp h
    exact (ih hrest).trans (build_program hbinary)

theorem reopen_program (h : reopen s = .ok () s') :
    s'.context.program = s.context.program := by
  obtain ⟨-, ⟨-, rfl⟩ | ⟨-, rfl⟩⟩ := reopen_eq_ok.mp h <;> rfl

theorem fallThrough_program {join join' : Option BlockId}
    (h : fallThrough join s = .ok join' s') : s'.context.program = s.context.program := by
  obtain ⟨-, ⟨-, -, rfl⟩ | ⟨-, target, s₁, -, rfl, hjoin⟩⟩ := fallThrough_eq_ok.mp h
  · rfl
  · rcases hjoin with ⟨-, rfl⟩ | ⟨-, -, rfl⟩ <;> rfl

/-! ### Expressions -/

/-- A callee is mentioned by a call, whether it is declared for that or not. -/
theorem resolve_lists (name : String) (arity : Nat) :
    StepLists (resolve name arity) [.called name arity] := by
  intro ms s id s' h hs
  obtain ⟨ctx, hctx, rfl⟩ := resolve_eq_ok.mp h
  obtain ⟨hlookup, rfl | rfl⟩ := Context.resolve_eq_ok hctx
  · exact hs.known hlookup
  · obtain ⟨-, hprogram, -⟩ := Context.declare_eq s.context name ⟨arity⟩
    rw [hprogram]
    exact hs.declare (.called name arity)

theorem asInt_lists {x : Lower Value} (hx : StepLists x xs) : StepLists (asInt x) xs := by
  intro ms s v s' h hs
  obtain ⟨w, s₁, hw, h⟩ := asInt_eq_ok.mp h
  rw [build_program h]
  exact hx _ _ _ _ hw hs

theorem asCondition_lists {x : Lower Value} (hx : StepLists x xs) (n : Node) :
    StepLists (asCondition n x) xs := by
  intro ms s v s' h hs
  obtain ⟨w, s₁, hw, h⟩ := asCondition_eq_ok.mp h
  rw [build_program h]
  exact hx _ _ _ _ hw hs

/-- Lowering a node in the place of an expression comes across what it mentions
    there. -/
def ExprLists (n : Node) : Prop := StepLists (expr n) n.valueMentions

theorem conditions_lists {ns : List Node} (hns : ∀ n ∈ ns, ExprLists n) :
    StepLists (conditions ns) (allValueMentions ns) := by
  induction ns with
  | nil =>
    intro ms s vs s' h hs
    obtain ⟨-, rfl⟩ := Effect.pure_eq_ok.mp h
    exact hs.nil
  | cons n rest ih =>
    intro ms s vs s' h hs
    rw [List.forall_mem_cons] at hns
    obtain ⟨v, s₁, ws, hv, hws, -⟩ := conditions_cons_eq_ok.mp h
    rw [allValueMentions, ← List.append_assoc]
    exact ih hns.2 _ _ _ _ hws (asCondition_lists hns.1 n _ _ _ _ hv hs)

theorem arguments_lists {ns : List Node} (hns : ∀ n ∈ ns, ExprLists n) :
    StepLists (arguments ns) (allValueMentions ns) := by
  induction ns with
  | nil =>
    intro ms s vs s' h hs
    obtain ⟨-, rfl⟩ := Effect.pure_eq_ok.mp h
    exact hs.nil
  | cons n rest ih =>
    intro ms s vs s' h hs
    rw [List.forall_mem_cons] at hns
    obtain ⟨v, s₁, ws, hv, hws, -⟩ := arguments_cons_eq_ok.mp h
    rw [allValueMentions, ← List.append_assoc]
    exact ih hns.2 _ _ _ _ hws (asInt_lists hns.1 _ _ _ _ hv hs)

theorem exprRun_lists {k : Kind} (hparts : ∀ n ∈ k.parts, ExprLists n) (h : ExprRun k s v s')
    (hs : s.context.program.Lists ms) : s'.context.program.Lists (ms ++ k.valueMentions) := by
  cases h with
  | constant => exact hs.nil
  | name h =>
    rw [build_program h]
    exact hs.nil
  | neg hoperand h =>
    rw [build_program h]
    exact asInt_lists (hparts _ (by simp [Kind.parts])) _ _ _ _ hoperand hs
  | binOp hop hleft hright h =>
    have hl := asInt_lists (hparts _ (by simp [Kind.parts])) _ _ _ _ hleft hs
    have hr := asInt_lists (hparts _ (by simp [Kind.parts])) _ _ _ _ hright hl
    rw [build_program h, Kind.valueMentions, ← List.append_assoc]
    exact hr
  | compare hop hleft hright h =>
    have hl := asInt_lists (hparts _ (by simp [Kind.parts])) _ _ _ _ hleft hs
    have hr := asInt_lists (hparts _ (by simp [Kind.parts])) _ _ _ _ hright hl
    rw [build_program h, Kind.valueMentions, allValueMentions, allValueMentions, List.append_nil,
      ← List.append_assoc]
    exact hr
  | boolOp hfirst hrest h =>
    have hv := asCondition_lists (hparts _ (by simp [Kind.parts])) _ _ _ _ _ hfirst hs
    have hvs := conditions_lists (fun n hn => hparts n (by simp [Kind.parts, hn])) _ _ _ _ hrest hv
    rw [join_program h, Kind.valueMentions, allValueMentions, ← List.append_assoc]
    exact hvs
  | call hcallee hargs h =>
    have hf := resolve_lists _ _ _ _ _ _ hcallee hs
    have hvs := arguments_lists (fun n hn => hparts n (by simp [Kind.parts, hn])) _ _ _ _ hargs hf
    rw [build_program h, Kind.valueMentions, List.append_cons]
    exact hvs

theorem exprLists (n : Node) : ExprLists n := by
  induction n using Node.parts_induction with
  | step n ih =>
    obtain ⟨kind, location, span⟩ := n
    exact fun ms s v s' h hs => exprRun_lists ih (expr_run h) hs

theorem condition_lists (n : Node) : StepLists (condition n) n.valueMentions :=
  asCondition_lists (exprLists n) n

/-! ### Constructs -/

theorem branch_lists {test : Lower Value} {body orelse : Lower Unit} (htest : StepLists test xs)
    (hbody : StepLists body ys) (horelse : StepLists orelse zs) :
    StepLists (branch test body orelse) (xs ++ (ys ++ zs)) := by
  intro ms s u s' h hs
  cases branch_run h with
  | @mk s₁ s₂ s₃ s₄ s₅ cond join join' hcond hopen hthen hjoin helse hjoin' =>
    have hs₁ := htest _ _ _ _ hcond hs
    have hs₂ := hbody _ _ _ _ hthen hs₁
    rw [← fallThrough_program hjoin] at hs₂
    have hs₄ := horelse _ _ _ _ helse hs₂
    have hprogram : (join'.elim s₅ s₅.movedTo).context.program = s₄.context.program := by
      rw [← fallThrough_program hjoin']
      cases join' <;> rfl
    rw [hprogram, ← List.append_assoc, ← List.append_assoc]
    exact hs₄

theorem loop_lists {test : Lower Value} {body : Lower Unit} (htest : StepLists test xs)
    (hbody : StepLists body ys) : StepLists (loop test body) (xs ++ ys) := by
  intro ms s u s' h hs
  cases loop_run h with
  | @mk s₁ s₂ s₃ cond hopen hcond hrun hcursor hback hexit =>
    have hs₁ := htest _ _ _ _ hcond hs
    have hs₂ := hbody _ _ _ _ hrun hs₁
    have hprogram : s₃.context.program = s₂.context.program := by
      rcases hback with ⟨-, rfl⟩ | ⟨-, rfl⟩ <;> rfl
    rw [← List.append_assoc]
    exact hprogram ▸ hs₂

/-- A function is mentioned before what is in its body. -/
theorem buildFunction_lists {name : String} {params : List String} {body : Lower Unit}
    (hbody : StepLists body xs) {ctx ctx' : Context} {id : FunctionId}
    (h : Context.buildFunction name params body ctx = .ok id ctx') (hctx : ctx.program.Lists ms) :
    ctx'.program.Lists (ms ++ .defined name params.length :: xs) := by
  cases buildFunction_run h with
  | @mk ctx₁ s s' hclaim hrun hcursor hend =>
    obtain ⟨-, -, -, rfl⟩ := Context.claim_eq_ok hclaim
    obtain ⟨-, hprogram, -⟩ := Context.declare_eq ctx name ⟨params.length⟩
    have hdeclared := hctx.declare (.defined name params.length)
    have hs := hbody _ _ _ _ hrun (hprogram ▸ hdeclared)
    have hcontext : s'.context = s.context := by
      rcases hend with ⟨-, rfl⟩ | ⟨-, rfl⟩ <;> rfl
    have hbody : s'.builder.finish.isDeclaration = false := by
      have hblocks := List.ne_nil_of_length_pos (ended_length hcursor hend)
      simp [Function.isDeclaration, Builder.finish, hblocks]
    rw [← hcontext] at hs
    rw [List.append_cons]
    exact hs.define hbody

/-! ### Statements -/

/-- Lowering a node in the place of a statement comes across what it mentions
    there. -/
def StatementLists (n : Node) : Prop := StepLists (statement n) n.mentions

theorem block_lists {ns : List Node} (hns : ∀ n ∈ ns, StatementLists n) :
    StepLists (block ns) (blockMentions ns) := by
  induction ns with
  | nil =>
    intro ms s u s' h hs
    obtain ⟨-, rfl⟩ := Effect.pure_eq_ok.mp h
    exact hs.nil
  | cons n rest ih =>
    intro ms s u s' h hs
    rw [List.forall_mem_cons] at hns
    obtain ⟨s₁, s₂, hreopen, hn, hrest⟩ := block_cons_eq_ok.mp h
    rw [← reopen_program hreopen] at hs
    rw [blockMentions, ← List.append_assoc]
    exact ih hns.2 _ _ _ _ hrest (hns.1 _ _ _ _ hn hs)

theorem elseClause_lists {ns : List Node} (hns : ∀ n ∈ ns, StatementLists n) :
    StepLists (elseClause ns) (elseMentions ns) := by
  intro ms s u s' h hs
  cases ns with
  | nil =>
    obtain ⟨-, rfl⟩ := Effect.pure_eq_ok.mp h
    exact hs.nil
  | cons n rest =>
    rw [elseClause_cons] at h
    have hprogram : (s.shortened (n :: rest).length).context.program = s.context.program := by
      unfold Workspace.shortened
      split <;> rfl
    rw [← hprogram] at hs
    exact hns n (List.mem_cons_self ..) _ _ _ _ h hs

theorem statementLists (n : Node) : StatementLists n := by
  induction n using Node.parts_induction with
  | step n ih =>
    obtain ⟨kind, location, span⟩ := n
    intro ms s u s' hrun hs
    change s'.context.program.Lists (ms ++ kind.mentions)
    cases statement_run hrun with
    | assign hvalue h =>
      rw [build_program h]
      exact exprLists _ _ _ _ _ hvalue hs
    | expr h => exact exprLists _ _ _ _ _ h hs
    | ret hvalue h =>
      rw [build_program h]
      exact exprLists _ _ _ _ _ hvalue hs
    | retNone h =>
      rw [build_program h]
      exact hs.nil
    | ifElse h =>
      exact branch_lists (condition_lists _)
        (block_lists fun n hn => ih n (by simp [Kind.parts, hn]))
        (elseClause_lists fun n hn => ih n (by simp [Kind.parts, hn])) _ _ _ _ h hs
    | whileLoop h =>
      exact loop_lists (condition_lists _)
        (block_lists fun n hn => ih n (by simp [Kind.parts, hn])) _ _ _ _ h hs
    | functionDef h => exact buildFunction_lists (block_lists ih) h hs
    | value h =>
      have hvalue : kind.mentions = kind.valueMentions := by cases h <;> rfl
      rw [hvalue]
      exact exprRun_lists (fun n _ => exprLists n) h hs

end Lower

/-! ## Trees -/

variable {tree : Node} {options : LowerOptions} {p : Program}

theorem lower_lists {body : List Node} {location : Option Location} {span : Option Span}
    (h : lower ⟨.module body, location, span⟩ options = .ok p) :
    p.Lists (moduleMentions body options) := by
  obtain ⟨w, id, ctx, -, hok, -, rfl⟩ := lower_module_eq_ok.mp h
  exact Lower.buildFunction_lists (Lower.block_lists fun n _ => Lower.statementLists n) hok
    (Program.lists_withBuiltins options.builtins)

/-- The function of a definition has its parameters, whatever it was declared
    with. -/
theorem Compiled.exists_function {d : Definition} (h : Compiled p d) :
    ∃ f ∈ p.functions, f.name = d.name ∧ f.isDeclaration = false ∧ f.params = d.params ∧
      f.signature = ⟨d.params.length⟩ := by
  cases h with
  | @mk id ctx s s' hid hbody hcursor hend hfunction hgrows =>
    have hparams : s'.builder.params = d.params := by
      have hsettles := Lower.block_settles (fun n _ => Lower.statement_settles n) _ _ hbody
      have hstart : s.builder.params = d.params := hsettles.params
      rcases hend with ⟨-, rfl⟩ | ⟨-, rfl⟩ <;> exact hstart
    have hblocks := List.ne_nil_of_length_pos (Lower.ended_length hcursor hend)
    refine ⟨_, List.mem_of_getElem? hfunction, rfl, ?_, hparams, ?_⟩
    · simp [Function.isDeclaration, Builder.finish, hblocks]
    · exact congrArg (fun params => Signature.mk params.length) hparams

/-- The first mention of a function that is not defined is a builtin, or a call. -/
theorem find?_moduleMentions {body : List Node} {name : String} {m : Mention}
    (hm : (moduleMentions body options).find? (·.name = name) = some m)
    (hno : ∀ d ∈ moduleDefinitions body options, d.name ≠ name) :
    if name ∈ options.builtins then m.arity = 1
    else (blockMentions body).find? (·.name = name) = some (.called name m.arity) := by
  have hentry : options.entryName ≠ name := hno _ (List.mem_cons_self ..)
  rw [moduleMentions, List.find?_append] at hm
  split
  · rename_i hmem
    cases hfirst : (options.builtins.map (Mention.called · 1)).find? (·.name = name) with
    | none =>
      have hnone := List.find?_eq_none.mp hfirst (.called name 1) (List.mem_map_of_mem hmem)
      simp [Mention.name] at hnone
    | some m' =>
      rw [hfirst] at hm
      cases hm
      obtain ⟨builtin, -, rfl⟩ := List.mem_map.mp (List.mem_of_find?_eq_some hfirst)
      rfl
  · rename_i hmem
    have hfirst : (options.builtins.map (Mention.called · 1)).find? (·.name = name) = none := by
      refine List.find?_eq_none.mpr (List.forall_mem_map.mpr fun builtin hbuiltin => ?_)
      have hne : builtin ≠ name := fun heq => hmem (heq ▸ hbuiltin)
      exact fun heq => hne (of_decide_eq_true heq)
    have hskip : decide ((Mention.defined options.entryName 0).name = name) = false :=
      decide_eq_false hentry
    rw [hfirst, Option.none_or, List.find?_cons, hskip] at hm
    change (blockMentions body).find? (·.name = name) = some m at hm
    have hname : m.name = name := by simpa using List.find?_some hm
    rw [hm]
    cases m with
    | called other arguments =>
      cases hname
      rfl
    | defined other parameters =>
      obtain ⟨d, hd, heq⟩ := blockMentions_definedBy (fun n _ => n.mentions_definedBy) _
        (List.mem_of_find?_eq_some hm) rfl
      exact absurd (heq.trans hname) (hno d (List.mem_cons_of_mem _ hd))

/-- The functions of a lowered program stand in the order in which they are first
    mentioned: the builtins, the entry function, and then those that the statements
    define or call. The definitions have a body, with parameters of their own however
    they were called before. All other functions are declared, a builtin with one
    parameter and any other with as many as its first call has arguments. -/
theorem lowered_functions (h : lower tree options = .ok p) :
    ∃ body, tree.kind = .module body ∧
      p.functions.map Function.name =
        (options.builtins ++ options.entryName ::
          (blockMentions body).map Mention.name).eraseDups ∧
      (∀ d ∈ moduleDefinitions body options, ∃ f ∈ p.functions, f.name = d.name ∧
        f.isDeclaration = false ∧ f.params = d.params ∧ f.signature = ⟨d.params.length⟩) ∧
      (∀ f ∈ p.functions, f.isDeclaration = false →
        ∃ d ∈ moduleDefinitions body options, d.name = f.name) ∧
      ∀ f ∈ p.functions, f.isDeclaration = true → ∃ arity, f = .declaration f.name ⟨arity⟩ ∧
        if f.name ∈ options.builtins then arity = 1
        else (blockMentions body).find? (·.name = f.name) = some (.called f.name arity) := by
  obtain ⟨body, location, span, rfl⟩ := lower_module h
  have hlists := lower_lists h
  obtain ⟨hcovers, -⟩ := lower_covers h
  have hdefined (d : Definition) (hd : d ∈ moduleDefinitions body options) :=
    (hcovers.compiled d hd).exists_function
  -- No two functions have one name, so a declared one has not that of a definition.
  have hunique {f g : Function} (hf : f ∈ p.functions) (hg : g ∈ p.functions)
      (hname : f.name = g.name) : f = g :=
    List.inj_on_of_nodup_map (lower_distinct h) hf hg hname
  refine ⟨body, rfl, ?_, hdefined, fun f hf hbody => ?_, fun f hf hdeclared => ?_⟩
  · have hbuiltins : (options.builtins.map (Mention.called · 1)).map Mention.name =
        options.builtins := by
      rw [List.map_map]
      exact List.map_id _
    rw [hlists.names, moduleMentions, List.map_append, List.map_cons, hbuiltins]
    rfl
  · obtain ⟨i, hi⟩ := List.mem_iff_getElem?.mp hf
    have hid : p.lookup f.name = some ⟨i⟩ := Program.lookup_name (lower_distinct h) hi
    refine Classical.byContradiction fun hno => ?_
    obtain ⟨g, hg, hname, hblocks⟩ :=
      hcovers.declared f.name ⟨i⟩ hid fun d hd heq => hno ⟨d, hd, heq⟩
    cases hunique hf (List.mem_of_getElem? hg) hname.symm
    simp [Function.isDeclaration, hblocks] at hbody
  · obtain ⟨m, hm, heq⟩ := hlists.declared f hf hdeclared
    refine ⟨m.arity, heq, find?_moduleMentions hm fun d hd hname => ?_⟩
    obtain ⟨g, hg, hgname, hgbody, -⟩ := hdefined d hd
    cases hunique hf hg (hname.symm.trans hgname.symm)
    rw [hdeclared] at hgbody
    cases hgbody

/-- A function that is called with two arguments before its definition with one
    parameter, and another that is called in the arguments of the first call and
    nowhere defined. -/
def mentioningTree : Node :=
  .module [
    .exprStmt (.call "f" [.call "g" [], .int 1]),
    .functionDef "f" ["x"] [.retNone, .exprStmt (.call "h" [.int 1])]]

/-- The functions stand in the order of their first mention, and the definition
    counts for the number of parameters. -/
theorem mentioningTree_functions :
    ∃ p, lower mentioningTree {} = .ok p ∧
      p.functions.map Function.name = ["print", "main", "f", "g", "h"] ∧
      ∃ f ∈ p.functions, f.name = "f" ∧ f.isDeclaration = false ∧ f.params = ["x"] ∧
        f.signature = ⟨1⟩ := by
  have hok : (lower mentioningTree {}).toBool = true := by decide +kernel
  cases hp : lower mentioningTree {} with
  | error e =>
    rw [hp] at hok
    cases hok
  | ok p =>
    obtain ⟨body, hbody, hnames, hdefined, -⟩ := lowered_functions hp
    cases hbody
    exact ⟨p, rfl, hnames, hdefined _ (.tail _ (.head _))⟩

end Blockform
