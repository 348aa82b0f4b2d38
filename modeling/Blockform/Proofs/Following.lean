-- SUMMARY: What it means for a step of lowering to do what a walk does (`Lower.Follows`), and that expressions do.
import Blockform.Proofs.Framing
import Blockform.Proofs.Registry
import Blockform.Proofs.Walk

/-!
# Lowering follows the walk

A step of lowering follows a list of requests if, from states that agree, it
succeeds where the walk grants them all, and fails with the refusal where the
walk refuses one (`Lower.Follows`). The errors that are not refusals, an
instruction behind a terminator and a number without an entry, thereby do not
occur; for that, the block under the cursor has to be open where an expression
or a statement is lowered.
-/

namespace Blockform

/-! ## Agreement -/

namespace Walk

/-- The registry of a lowering agrees with a walk. -/
structure Registers (w : Walk) (ctx : Context) : Prop where
  names : ctx.program.functions.map Function.name = w.registered
  distinct : w.registered.Nodup
  begun : ∀ name ∈ w.begun, name ∈ w.registered
  claimed : ∀ id ∈ ctx.building, id.val < ctx.program.size
  busy : ∀ id f, ctx.program.function? id = some f →
    (f.name ∈ w.begun ↔ f.isDeclaration = false ∨ id ∈ ctx.building)

/-- A function under construction agrees with a body. -/
structure Describes (body : Body) (b : Builder) : Prop where
  function : b.name = body.function
  params : b.params = body.params
  bound : b.slots.map Slot.name = body.bound

/-- A state of lowering agrees with a walk. -/
structure Tracks (options : LowerOptions) (w : Walk) (s : Workspace) : Prop where
  options : s.context.options = options
  registers : w.Registers s.context
  describes : Describes w.body s.builder

variable {options : LowerOptions} {w : Walk} {ctx ctx' : Context} {name : String}

theorem Registers.lookup_eq_none (h : w.Registers ctx) :
    ctx.program.lookup name = none ↔ name ∉ w.registered := by
  rw [Program.lookup_eq_none, ← h.names, List.mem_map]
  constructor
  · rintro hne ⟨f, hf, heq⟩
    exact hne f hf heq
  · exact fun hnot f hf heq => hnot ⟨f, hf, heq⟩

/-- What is noted is of no concern to a walk. -/
theorem Registers.of_eq (h : w.Registers ctx) (hprogram : ctx'.program = ctx.program)
    (hbuilding : ctx'.building = ctx.building) : w.Registers ctx' := by
  refine ⟨?_, h.distinct, h.begun, ?_, ?_⟩
  · rw [hprogram]
    exact h.names
  · rw [hprogram, hbuilding]
    exact h.claimed
  · rw [hprogram, hbuilding]
    exact h.busy

theorem Registers.declare (h : w.Registers ctx) (name : String) (signature : Signature) :
    (w.register name).Registers (ctx.declare name signature).2 := by
  obtain ⟨-, hprogram, -, hbuilding⟩ := Context.declare_eq ctx name signature
  unfold register
  cases hlookup : ctx.program.lookup name with
  | some id =>
    have hmem : name ∈ w.registered := by
      refine Decidable.not_not.mp fun hnot => ?_
      rw [h.lookup_eq_none.mpr hnot] at hlookup
      cases hlookup
    rw [Program.declare_of_some hlookup] at hprogram
    rw [if_pos hmem]
    exact h.of_eq hprogram hbuilding
  | none =>
    have hnot : name ∉ w.registered := h.lookup_eq_none.mp hlookup
    rw [Program.declare_of_none hlookup] at hprogram
    rw [if_neg hnot]
    refine ⟨?_, ?_, ?_, ?_, ?_⟩
    · rw [hprogram]
      simp [Function.declaration, h.names]
    · refine List.nodup_append.mpr ⟨h.distinct, by simp, fun n hn n' hn' => ?_⟩
      rw [List.mem_singleton.mp hn']
      rintro rfl
      exact hnot hn
    · exact fun n hn => List.mem_append_left _ (h.begun n hn)
    · intro id hid
      rw [hbuilding] at hid
      rw [hprogram]
      exact Nat.lt_of_lt_of_le (h.claimed id hid) (by simp [Program.size])
    · intro id f hf
      rw [hbuilding]
      rw [hprogram] at hf
      have hf : (ctx.program.functions ++ [.declaration name signature])[id.val]? = some f := hf
      rcases Nat.lt_or_ge id.val ctx.program.functions.length with hlt | hge
      · rw [List.getElem?_append_left hlt] at hf
        exact h.busy id f hf
      · -- The new declaration: its name is not begun, and its number is not claimed.
        rw [List.getElem?_append_right hge] at hf
        rw [List.mem_singleton.mp (List.mem_of_getElem? hf)]
        have hunbegun : name ∉ w.begun := fun hb => hnot (h.begun name hb)
        have hunclaimed : id ∉ ctx.building := fun hb => Nat.not_lt_of_le hge (h.claimed id hb)
        simp [Function.declaration, Function.isDeclaration, hunbegun, hunclaimed]

theorem bind_outer (w : Walk) (name : String) : (w.bind name).outer = w.outer := by
  unfold bind
  split <;> rfl

theorem register_outer (w : Walk) (name : String) : (w.register name).outer = w.outer := by
  unfold register
  split <;> rfl

theorem register_body (w : Walk) (name : String) : (w.register name).body = w.body := by
  unfold register
  split <;> rfl

theorem register_begun (w : Walk) (name : String) : (w.register name).begun = w.begun := by
  unfold register
  split <;> rfl

theorem mem_register (w : Walk) (name : String) : name ∈ (w.register name).registered := by
  unfold register
  split
  · assumption
  · simp

/-- A function of a given name has one number. -/
theorem Registers.unique (h : w.Registers ctx) {id id' : FunctionId} {f f' : Function}
    (hf : ctx.program.function? id = some f) (hf' : ctx.program.function? id' = some f')
    (hname : f'.name = f.name) : id' = id := by
  have hget : w.registered[id.val]? = some f.name := by
    have hf : ctx.program.functions[id.val]? = some f := hf
    simp [← h.names, hf]
  have hget' : w.registered[id'.val]? = some f.name := by
    have hf' : ctx.program.functions[id'.val]? = some f' := hf'
    simp [← h.names, hf', hname]
  obtain ⟨hlt, heq⟩ := List.getElem?_eq_some_iff.mp hget
  obtain ⟨hlt', heq'⟩ := List.getElem?_eq_some_iff.mp hget'
  have hval : id'.val = id.val := (List.getElem_inj h.distinct).mp (heq'.trans heq.symm)
  cases id
  cases id'
  exact congrArg FunctionId.mk hval

/-- The number of a name that is declared, with the function that bears it. -/
theorem function?_declared (ctx : Context) (name : String) (signature : Signature) :
    ∃ f, (ctx.declare name signature).2.program.function? (ctx.declare name signature).1 = some f ∧
      f.name = name := by
  obtain ⟨f, hf, hname, -⟩ :=
    Program.lookup_eq_some.mp (Context.lookup_declare ctx name signature)
  exact ⟨f, hf, hname⟩

/-- A function is claimed exactly if it has not been begun. -/
theorem Registers.claim_eq (h : w.Registers ctx) (name : String) (arity : Nat) :
    ctx.claim name arity =
      if name ∈ w.begun then .error (.duplicate name)
      else .ok ((ctx.declare name ⟨arity⟩).1,
        { (ctx.declare name ⟨arity⟩).2 with
          building := (ctx.declare name ⟨arity⟩).1 :: (ctx.declare name ⟨arity⟩).2.building }) := by
  obtain ⟨f, hf, rfl⟩ := function?_declared ctx name ⟨arity⟩
  have hbusy := (h.declare f.name ⟨arity⟩).busy _ f hf
  rw [register_begun] at hbusy
  unfold Context.claim
  generalize ctx.declare f.name ⟨arity⟩ = declared at hf hbusy ⊢
  obtain ⟨id, ctx₁⟩ := declared
  refine ite_cond_congr (propext ?_)
  simp only at hf hbusy
  rw [hbusy, hf]
  simp [or_comm]

/-- The registry once a function is claimed. -/
theorem Registers.claim (h : w.Registers ctx) (name : String) (arity : Nat) :
    (w.claim name).Registers
      { (ctx.declare name ⟨arity⟩).2 with
        building := (ctx.declare name ⟨arity⟩).1 :: (ctx.declare name ⟨arity⟩).2.building } := by
  have hdeclared := h.declare name ⟨arity⟩
  obtain ⟨f, hf, hname⟩ := function?_declared ctx name ⟨arity⟩
  refine ⟨hdeclared.names, hdeclared.distinct, ?_, ?_, fun id g hg => ?_⟩
  · refine List.forall_mem_cons.mpr ⟨mem_register w name, fun n hn => ?_⟩
    rw [← register_begun w name] at hn
    exact hdeclared.begun n hn
  · refine List.forall_mem_cons.mpr ⟨?_, hdeclared.claimed⟩
    exact Program.lookup_lt (Context.lookup_declare ctx name ⟨arity⟩)
  · have hbusy := hdeclared.busy id g hg
    rw [register_begun] at hbusy
    change g.name ∈ name :: w.begun ↔ _
    rw [List.mem_cons, List.mem_cons, hbusy]
    have hself : g.name = name ↔ id = (ctx.declare name ⟨arity⟩).1 := by
      constructor
      · exact fun heq => hdeclared.unique hf hg (heq.trans hname.symm)
      · rintro rfl
        cases hf.symm.trans hg
        exact hname
    rw [hself]
    exact or_left_comm

/-- The registry once a function that was claimed is finished. -/
theorem Registers.complete (h : w.Registers ctx) {id : FunctionId} (hid : id ∈ ctx.building)
    {b : Builder} (hbody : b.HasCursor) : w.Registers (ctx.complete id b) := by
  have hlt := h.claimed id hid
  obtain ⟨f, hf⟩ : ∃ f, ctx.program.function? id = some f :=
    ⟨_, List.getElem?_eq_getElem hlt⟩
  refine ⟨?_, h.distinct, h.begun, ?_, fun other g hg => ?_⟩
  · rw [← h.names]
    exact Program.names_define ..
  · intro other hother
    rw [Context.complete, Program.size_define]
    exact h.claimed other (List.mem_filter.mp hother).1
  · by_cases hother : other = id
    · -- The function itself: it was begun when it was claimed, and has a body now.
      subst hother
      have hg : (ctx.program.define other b.finish).function? other = some g := hg
      rw [Program.function?_define_self hf] at hg
      cases hg
      have hblocks : b.blocks ≠ [] := List.ne_nil_of_length_pos (Nat.zero_lt_of_lt hbody)
      have hbegun : f.name ∈ w.begun := (h.busy other f hf).mpr (.inr hid)
      simp [Function.isDeclaration, Builder.finish, hblocks, hbegun]
    · have hg : (ctx.program.define id b.finish).function? other = some g := hg
      rw [Program.function?_define_ne hother] at hg
      rw [h.busy other g hg]
      simp [Context.complete, hother]

theorem Registers.bind (h : w.Registers ctx) (name : String) : (w.bind name).Registers ctx := by
  unfold Walk.bind
  split <;> exact ⟨h.names, h.distinct, h.begun, h.claimed, h.busy⟩

/-- A name is known exactly if reading it is granted. -/
theorem Describes.knows {body : Body} {b : Builder} (h : Describes body b) (name : String) :
    (name ∈ body.params ∨ name ∈ body.bound) ↔ (b.param? name).isSome ∨ (b.slot? name).isSome := by
  have hparam : (b.param? name).isSome ↔ name ∈ body.params := by
    simp [Builder.param?_eq, ← h.params]
  have hslot : (b.slot? name).isSome ↔ name ∈ body.bound := by
    simp [Builder.slot?_eq, ← h.bound]
  rw [hparam, hslot]

theorem Describes.of_eq {body : Body} {b b' : Builder} (h : Describes body b)
    (hname : b'.name = b.name) (hparams : b'.params = b.params) (hslots : b'.slots = b.slots) :
    Describes body b' :=
  ⟨hname.trans h.function, hparams.trans h.params, hslots ▸ h.bound⟩

theorem Describes.emits {body : Body} {b b' : Builder} (h : Describes body b) (hb : b.Emits b') :
    Describes body b' := by
  obtain ⟨ops, rfl, -⟩ := hb
  exact h.of_eq rfl rfl rfl

theorem Describes.withSlot {b : Builder} (h : Describes w.body b) (name : String) :
    Describes (w.bind name).body (b.withSlot name) := by
  have hslot : (b.slot? name).isSome ↔ name ∈ w.body.bound := by
    simp [Builder.slot?_eq, ← h.bound]
  unfold bind Builder.withSlot Builder.ensureSlot
  cases hs : b.slot? name with
  | some slot =>
    rw [if_pos (hslot.mp (by rw [hs]; rfl))]
    exact h
  | none =>
    rw [if_neg fun hmem => by simpa [hs] using hslot.mpr hmem]
    exact ⟨h.function, h.params, by simp [h.bound]⟩

namespace Tracks

variable {s s' : Workspace}

/-- Blocks, terminators and the cursor are of no concern to a walk. -/
theorem of_eq (h : w.Tracks options s) (hcontext : s.context.Grows s'.context)
    (hprogram : s'.context.program = s.context.program) (hname : s'.builder.name = s.builder.name)
    (hparams : s'.builder.params = s.builder.params)
    (hslots : s'.builder.slots = s.builder.slots) : w.Tracks options s' where
  options := hcontext.options.trans h.options
  registers := h.registers.of_eq hprogram hcontext.building
  describes := h.describes.of_eq hname hparams hslots

theorem withBlock (h : w.Tracks options s) (label : String) :
    w.Tracks options (s.withBlock label) :=
  h.of_eq (.note ..) rfl rfl rfl rfl

theorem movedTo (h : w.Tracks options s) (block : BlockId) :
    w.Tracks options (s.movedTo block) :=
  h.of_eq (.refl _) rfl rfl rfl rfl

theorem closed (h : w.Tracks options s) (t : Terminator) : w.Tracks options (s.closed t) :=
  h.of_eq (.refl _) rfl rfl rfl rfl

theorem shortened (h : w.Tracks options s) (statements : Nat) :
    w.Tracks options (s.shortened statements) := by
  unfold Workspace.shortened
  split
  · exact h.of_eq (.note ..) rfl rfl rfl rfl
  · exact h

end Tracks

-- Runs of a walk, one request after the other.

section Run

variable {options : LowerOptions} {w w' : Walk} {r : Request} {rs xs : List Request}
  {e : LoweringError}

theorem run_append_of_ok (h : w.run options xs = .ok w') (ys : List Request) :
    w.run options (xs ++ ys) = w'.run options ys := by
  unfold run at h ⊢
  rw [List.foldlM_append, h]
  rfl

theorem run_append_of_error (h : w.run options xs = .error e) (ys : List Request) :
    w.run options (xs ++ ys) = .error e := by
  unfold run at h ⊢
  rw [List.foldlM_append, h]
  rfl

theorem run_singleton (options : LowerOptions) (w : Walk) (r : Request) :
    w.run options [r] = w.step options r := by
  unfold run
  rw [List.foldlM_cons]
  cases w.step options r <;> rfl

theorem run_cons_of_ok (h : w.step options r = .ok w') (rs : List Request) :
    w.run options (r :: rs) = w'.run options rs :=
  run_append_of_ok ((run_singleton options w r).trans h) rs

theorem run_cons_of_error (h : w.step options r = .error e) (rs : List Request) :
    w.run options (r :: rs) = .error e :=
  run_append_of_error ((run_singleton options w r).trans h) rs

/-- Requests are granted inside a node as they are outside of it. -/
theorem run_inside_of_ok (n : Node) (h : w.run options rs = .ok w') :
    w.run options (rs.map (.inside n)) = .ok w' := by
  induction rs generalizing w with
  | nil => exact h
  | cons r rest ih =>
    cases hstep : w.step options r with
    | error e =>
      rw [run_cons_of_error hstep] at h
      cases h
    | ok w₁ =>
      rw [run_cons_of_ok hstep] at h
      have hinside : w.step options (.inside n r) = .ok w₁ := by
        rw [step, hstep]
      rw [List.map_cons, run_cons_of_ok hinside]
      exact ih h

theorem run_inside_of_error (n : Node) (h : w.run options rs = .error e) :
    w.run options (rs.map (.inside n)) = .error (e.locate n) := by
  induction rs generalizing w with
  | nil => cases h
  | cons r rest ih =>
    cases hstep : w.step options r with
    | error e' =>
      rw [run_cons_of_error hstep] at h
      cases h
      have hinside : w.step options (.inside n r) = .error (e.locate n) := by
        rw [step, hstep]
      rw [List.map_cons, run_cons_of_error hinside]
    | ok w₁ =>
      rw [run_cons_of_ok hstep] at h
      have hinside : w.step options (.inside n r) = .ok w₁ := by
        rw [step, hstep]
      rw [List.map_cons, run_cons_of_ok hinside]
      exact ih h

end Run

end Walk

namespace Lower

open Effect Walk

/-! ## Steps that follow requests -/

variable {α β : Type} {options : LowerOptions} {R R₁ R' : Builder → Prop}

/-- From states that agree with a walk, and in which the function under
    construction is ready, the step does what the walk does on the requests. -/
def Follows (options : LowerOptions) (R R' : Builder → Prop) (x : Lower α)
    (requests : List Request) : Prop :=
  ∀ w s, Walk.Tracks options w s → R s.builder →
    match w.run options requests with
    | .ok w' => ∃ a s', x s = .ok a s' ∧ w'.Tracks options s' ∧ w'.outer = w.outer ∧ R' s'.builder
    | .error e => ∃ s', x s = .error (.error e) s'

theorem Follows.granted {x : Lower α} {rs : List Request} (hx : Follows options R R' x rs)
    {w w' : Walk} {s : Workspace} (hw : w.Tracks options s) (hR : R s.builder)
    (hrun : w.run options rs = .ok w') :
    ∃ a s', x s = .ok a s' ∧ w'.Tracks options s' ∧ w'.outer = w.outer ∧ R' s'.builder := by
  have h := hx w s hw hR
  rw [hrun] at h
  exact h

theorem Follows.refused {x : Lower α} {rs : List Request} (hx : Follows options R R' x rs)
    {w : Walk} {s : Workspace} (hw : w.Tracks options s) (hR : R s.builder) {e : LoweringError}
    (hrun : w.run options rs = .error e) : ∃ s', x s = .error (.error e) s' := by
  have h := hx w s hw hR
  rw [hrun] at h
  exact h

theorem Follows.bind {x : Lower α} {f : α → Lower β} {xs ys : List Request}
    (hx : Follows options R R₁ x xs) (hf : ∀ a, Follows options R₁ R' (f a) ys) :
    Follows options R R' (x >>= f) (xs ++ ys) := by
  intro w s hw hR
  cases hrun : w.run options xs with
  | error e =>
    obtain ⟨s', hfail⟩ := hx.refused hw hR hrun
    rw [run_append_of_error hrun]
    exact ⟨s', bind_of_error hfail⟩
  | ok w₁ =>
    obtain ⟨a, s₁, hok, hw₁, houter, hR₁⟩ := hx.granted hw hR hrun
    rw [run_append_of_ok hrun, bind_of_ok hok, ← houter]
    exact hf a w₁ s₁ hw₁ hR₁

theorem Follows.pure (a : α) : Follows options R R (pure a : Lower α) [] :=
  fun _ s hw hR => ⟨a, s, rfl, hw, rfl, hR⟩

theorem Follows.unsupported (what : String) :
    Follows options R R' (unsupported what : Lower α) [.refused what] :=
  fun _ s _ _ => ⟨s, rfl⟩

/-- The refusals of a node's requests and the errors of its step take the same
    position. -/
theorem Follows.locating {x : Lower α} {rs : List Request} (hx : Follows options R R' x rs)
    (n : Node) : Follows options R R' (locating n x) (rs.map (.inside n)) := by
  intro w s hw hR
  cases hrun : w.run options rs with
  | error e =>
    obtain ⟨s', hfail⟩ := hx.refused hw hR hrun
    rw [run_inside_of_error n hrun]
    refine ⟨s', ?_⟩
    unfold Lower.locating
    rw [hfail]
    rfl
  | ok w' =>
    obtain ⟨a, s', hok, hrest⟩ := hx.granted hw hR hrun
    rw [run_inside_of_ok n hrun]
    refine ⟨a, s', ?_, hrest⟩
    unfold Lower.locating
    rw [hok]

/-- A step of building that adds operations to an open block and cannot fail asks
    for nothing. -/
theorem Follows.build {x : Build α}
    (hx : ∀ b, b.IsOpen → ∃ a b', x b = .ok a b' ∧ b.Emits b') :
    Follows options Builder.IsOpen Builder.IsOpen (build x) [] := by
  intro w s hw hopen
  obtain ⟨a, b, hok, hemits⟩ := hx s.builder hopen
  exact ⟨a, _, build_of_ok hok, ⟨hw.options, hw.registers, hw.describes.emits hemits⟩, rfl,
    hemits.isOpen_iff.mpr hopen⟩

theorem toInt_follows (v : Value) :
    Follows options Builder.IsOpen Builder.IsOpen (Lower.build (Build.toInt v)) [] := by
  refine .build fun b hopen => ?_
  obtain ⟨w, b', hok, -⟩ := Build.exists_toInt hopen v
  exact ⟨w, b', hok, Build.toInt_emits hok⟩

theorem toBool_follows (v : Value) :
    Follows options Builder.IsOpen Builder.IsOpen (Lower.build (Build.toBool v)) [] := by
  refine .build fun b hopen => ?_
  have hok : ∃ w b', Build.toBool v b = .ok w b' := by
    cases hty : v.ty with
    | i1 => exact ⟨_, _, Build.toBool_eq_ok.mpr (.inl ⟨hty, rfl, rfl⟩)⟩
    | i32 => exact ⟨_, _, Build.toBool_eq_ok.mpr (.inr ⟨hty, hopen, rfl, rfl⟩)⟩
  obtain ⟨w, b', hok⟩ := hok
  exact ⟨w, b', hok, Build.toBool_emits hok⟩

/-- An operation with a fresh result can always be added to an open block. -/
theorem define_follows (ty : Ty) {op : InstId → Op} (hop : ∀ dest, (op dest).dest = some dest) :
    Follows options Builder.IsOpen Builder.IsOpen (Lower.build (Build.define ty op)) [] :=
  .build fun _ hopen => ⟨_, _, Build.define_of_open hopen hop, .emitted hopen _⟩

theorem neg_follows (v : Value) :
    Follows options Builder.IsOpen Builder.IsOpen (Lower.build (Build.neg v)) [] :=
  define_follows .i32 fun _ => rfl

theorem binary_follows (op : BinaryOp) (lhs rhs : Value) :
    Follows options Builder.IsOpen Builder.IsOpen (Lower.build (Build.binary op lhs rhs)) [] :=
  define_follows lhs.ty fun _ => rfl

theorem icmp_follows (pred : Predicate) (lhs rhs : Value) :
    Follows options Builder.IsOpen Builder.IsOpen (Lower.build (Build.icmp pred lhs rhs)) [] :=
  define_follows .i1 fun _ => rfl

theorem call_follows (callee : FunctionId) (args : List Value) :
    Follows options Builder.IsOpen Builder.IsOpen (Lower.build (Build.call callee args)) [] :=
  define_follows .i32 fun _ => rfl

/-- A name is read exactly if it is known. -/
theorem read_follows (name : String) :
    Follows options Builder.IsOpen Builder.IsOpen (Lower.build (Build.read name)) [.read name] := by
  intro w s hw hopen
  have hknows := hw.describes.knows name
  by_cases hknown : name ∈ w.body.params ∨ name ∈ w.body.bound
  · have hrun : w.run options [.read name] = .ok w := (run_singleton ..).trans (if_pos hknown)
    have hok : ∃ v b, Build.read name s.builder = .ok v b := by
      cases hparam : s.builder.param? name with
      | some v => exact ⟨_, _, Build.read_eq_ok.mpr (.inl ⟨hparam, rfl⟩)⟩
      | none =>
        cases hslot : s.builder.slot? name with
        | some slot =>
          exact ⟨_, _, Build.read_eq_ok.mpr (.inr ⟨hparam, slot, hslot, hopen, rfl, rfl⟩)⟩
        | none =>
          have h := hknows.mp hknown
          simp [hparam, hslot] at h
    obtain ⟨v, b, hok⟩ := hok
    have hemits := Build.read_emits hok
    rw [hrun]
    exact ⟨v, _, build_of_ok hok, ⟨hw.options, hw.registers, hw.describes.emits hemits⟩, rfl,
      hemits.isOpen_iff.mpr hopen⟩
  · have hrun : w.run options [.read name] = .error (.unbound name w.body.function) :=
      (run_singleton ..).trans (if_neg hknown)
    have hunknown := mt hknows.mpr hknown
    simp only [not_or, Bool.not_eq_true, Option.isSome_eq_false_iff,
      Option.isNone_iff_eq_none] at hunknown
    rw [hrun]
    refine ⟨s, ?_⟩
    unfold Lower.build
    rw [Build.read_of_unbound hunknown.1 hunknown.2, hw.describes.function]

/-- A name is bound by the first write to it. -/
theorem write_follows (name : String) (v : Value) :
    Follows options Builder.IsOpen Builder.IsOpen (Lower.build (Build.write name v))
      [.bind name] := by
  intro w s hw hopen
  have hrun : w.run options [.bind name] = .ok (w.bind name) := run_singleton ..
  obtain ⟨v', s₁, hbuild, hw₁, -, hopen₁⟩ := (toInt_follows v).granted hw hopen rfl
  obtain ⟨b, hint, rfl⟩ := build_eq_ok.mp hbuild
  have hok : Build.write name v s.builder = .ok () _ :=
    Build.write_eq_ok.mpr ⟨v', b, hint, hopen₁, rfl⟩
  have hopen' : (b.withSlot name).IsOpen := Builder.isOpen_withSlot.mpr hopen₁
  have hemits : (b.withSlot name).Emits
      ((b.withSlot name).emitted [.store v' (b.ensureSlot name).1]) := .emitted hopen' _
  have hdescribes := (hw₁.describes.withSlot name).emits hemits
  rw [hrun]
  exact ⟨(), _, build_of_ok hok, ⟨hw.options, hw.registers.bind name, hdescribes⟩,
    bind_outer w name, Builder.isOpen_emitted.mpr hopen'⟩

theorem ret_follows (v : Value) :
    Follows options Builder.IsOpen Builder.HasCursor (Lower.build (Build.ret v)) [] := by
  intro w s hw hopen
  obtain ⟨v', s₁, hbuild, hw₁, -, hopen₁⟩ := (toInt_follows v).granted hw hopen rfl
  obtain ⟨b, hint, rfl⟩ := build_eq_ok.mp hbuild
  have hok : Build.ret v s.builder = .ok () _ := Build.ret_eq_ok.mpr ⟨v', b, hint, hopen₁, rfl⟩
  refine ⟨(), _, build_of_ok hok, ⟨hw.options, hw.registers, hw₁.describes.of_eq rfl rfl rfl⟩,
    rfl, ?_⟩
  exact (Builder.Framed.close hopen₁ _).hasCursor hopen₁.hasCursor

/-- A callee that is not registered is declared if the options allow it. -/
theorem resolve_follows (name : String) (arity : Nat) :
    Follows options R R (resolve name arity) [.call name] := by
  intro w s hw hR
  have hlookup : s.context.program.lookup name = none ↔ name ∉ w.registered :=
    hw.registers.lookup_eq_none
  cases hauto : options.autoDeclareCallees with
  | true =>
    have hrun : w.run options [.call name] = .ok (w.register name) := by
      rw [run_singleton, step, Walk.register, hauto]
      by_cases hmem : name ∈ w.registered
      · rw [if_pos hmem, if_pos hmem]
      · rw [if_neg hmem, if_neg hmem]
        rfl
    have hok : s.context.resolve name arity = .ok (s.context.declare name ⟨arity⟩) := by
      unfold Context.resolve
      rw [hw.options, hauto]
      rfl
    have hresolve : resolve name arity s = .ok (s.context.declare name ⟨arity⟩).1
        { s with context := (s.context.declare name ⟨arity⟩).2 } :=
      resolve_eq_ok.mpr ⟨_, hok, rfl⟩
    rw [hrun]
    refine ⟨_, _, hresolve, ⟨?_, hw.registers.declare name ⟨arity⟩, ?_⟩, register_outer w name, hR⟩
    · exact (Context.declare_grows ..).options.trans hw.options
    · rw [register_body]
      exact hw.describes
  | false =>
    have hget : s.context.resolve name arity = (s.context.get name).map (·, s.context) := by
      unfold Context.resolve
      rw [hw.options, hauto]
      rfl
    by_cases hmem : name ∈ w.registered
    · have hrun : w.run options [.call name] = .ok w := (run_singleton ..).trans (if_pos hmem)
      obtain ⟨id, hid⟩ : ∃ id, s.context.program.lookup name = some id :=
        Option.ne_none_iff_exists'.mp fun hnone => hlookup.mp hnone hmem
      have hok : s.context.resolve name arity = .ok (id, s.context) := by
        rw [hget, Context.get, hid]
        rfl
      rw [hrun]
      exact ⟨id, s, resolve_eq_ok.mpr ⟨_, hok, rfl⟩, hw, rfl, hR⟩
    · have hrun : w.run options [.call name] = .error (.undeclared name) := by
        rw [run_singleton, step, if_neg hmem, hauto]
        rfl
      have hfail : s.context.resolve name arity = .error (.undeclared name) := by
        rw [hget, Context.get, hlookup.mpr hmem]
        rfl
      rw [hrun]
      refine ⟨s, ?_⟩
      unfold resolve
      rw [hfail]

/-! ## Expressions -/

theorem asInt_follows {x : Lower Value} {rs : List Request}
    (hx : Follows options Builder.IsOpen Builder.IsOpen x rs) :
    Follows options Builder.IsOpen Builder.IsOpen (asInt x) rs := by
  rw [← List.append_nil rs]
  exact hx.bind toInt_follows

theorem asCondition_follows {x : Lower Value} {rs : List Request}
    (hx : Follows options Builder.IsOpen Builder.IsOpen x rs) (n : Node) :
    Follows options Builder.IsOpen Builder.IsOpen (asCondition n x) rs := by
  rw [← List.append_nil rs]
  exact hx.bind fun v => (toBool_follows v).locating n

theorem join_follows (op : BinaryOp) (first : Value) (rest : List Value) :
    Follows options Builder.IsOpen Builder.IsOpen (join op first rest) [] := by
  induction rest generalizing first with
  | nil => exact .pure first
  | cons v rest ih =>
    unfold join
    rw [List.foldlM_cons]
    exact (binary_follows op first v).bind ih

/-- Lowering a node in the place of an expression follows what it asks for
    there. -/
def ExprFollows (options : LowerOptions) (n : Node) : Prop :=
  Follows options Builder.IsOpen Builder.IsOpen (expr n) n.valueAsks

theorem conditions_follows {ns : List Node} (hns : ∀ n ∈ ns, ExprFollows options n) :
    Follows options Builder.IsOpen Builder.IsOpen (conditions ns) (allValueAsks ns) := by
  induction ns with
  | nil => exact .pure []
  | cons n rest ih =>
    rw [List.forall_mem_cons] at hns
    refine (asCondition_follows hns.1 n).bind fun v => ?_
    rw [← List.append_nil (allValueAsks rest)]
    exact (ih hns.2).bind fun vs => .pure (v :: vs)

theorem arguments_follows {ns : List Node} (hns : ∀ n ∈ ns, ExprFollows options n) :
    Follows options Builder.IsOpen Builder.IsOpen (arguments ns) (allValueAsks ns) := by
  induction ns with
  | nil => exact .pure []
  | cons n rest ih =>
    rw [List.forall_mem_cons] at hns
    refine (asInt_follows hns.1).bind fun v => ?_
    rw [← List.append_nil (allValueAsks rest)]
    exact (ih hns.2).bind fun vs => .pure (v :: vs)

/-- Two operands, from the left, and a step that asks for nothing. -/
theorem operands_follows {left right : Node} {f : Value → Value → Lower Value}
    (hleft : ExprFollows options left) (hright : ExprFollows options right)
    (hf : ∀ l r, Follows options Builder.IsOpen Builder.IsOpen (f l r) []) :
    Follows options Builder.IsOpen Builder.IsOpen
      (do f (← asInt (expr left)) (← asInt (expr right))) (left.valueAsks ++ right.valueAsks) := by
  refine (asInt_follows hleft).bind fun l => ?_
  rw [← List.append_nil right.valueAsks]
  exact (asInt_follows hright).bind fun r => hf l r

/-- Lowering has an instruction for each operator of the language, and for no other. -/
theorem valueAsks_binOp (left : Node) (op : BinaryOperator) (right : Node) :
    (Kind.binOp left op right).valueAsks =
      match op.arithmetic with
      | none => [.refused ("\"" ++ op.name ++ "\" operator")]
      | some _ => left.valueAsks ++ right.valueAsks := by
  rw [Kind.valueAsks]
  cases op <;> rfl

/-- Lowering has an instruction for each comparison of the language, and for no other. -/
theorem valueAsks_compare (left : Node) (op : CompareOperator) (right : Node) :
    (Kind.compare left [op] [right]).valueAsks =
      match op.predicate with
      | none => [.refused ("\"" ++ op.name ++ "\" operator")]
      | some _ => left.valueAsks ++ right.valueAsks := by
  rw [Kind.valueAsks]
  cases op <;> rfl

theorem exprKind_follows {k : Kind} (hparts : ∀ n ∈ k.parts, ExprFollows options n) :
    Follows options Builder.IsOpen Builder.IsOpen (exprKind k) k.valueAsks := by
  cases k with
  | constant n => exact .pure _
  | name id => exact read_follows id
  | unaryOp op operand =>
    cases op with
    | uSub =>
      have h := (asInt_follows (hparts operand (by simp [Kind.parts]))).bind neg_follows
      rwa [List.append_nil] at h
    | uAdd => exact .unsupported _
    | not => exact .unsupported _
    | invert => exact .unsupported _
  | binOp left op right =>
    rw [exprKind, valueAsks_binOp]
    cases op.arithmetic with
    | none => exact .unsupported _
    | some arithmetic =>
      exact operands_follows (hparts left (by simp [Kind.parts]))
        (hparts right (by simp [Kind.parts])) (binary_follows arithmetic)
  | boolOp op values =>
    cases values with
    | nil => exact .unsupported _
    | cons first rest =>
      refine (asCondition_follows (hparts first (by simp [Kind.parts])) first).bind fun v => ?_
      rw [← List.append_nil (allValueAsks rest)]
      refine (conditions_follows fun n hn => hparts n ?_).bind (join_follows op.logic v)
      simp [Kind.parts, hn]
  | compare left ops rights =>
    rcases ops with - | ⟨op, - | ⟨op', ops⟩⟩
    · exact .unsupported _
    · rcases rights with - | ⟨right, - | ⟨right', rights⟩⟩
      · exact .unsupported _
      · rw [exprKind, valueAsks_compare]
        cases op.predicate with
        | none => exact .unsupported _
        | some predicate =>
          exact operands_follows (hparts left (by simp [Kind.parts]))
            (hparts right (by simp [Kind.parts])) (icmp_follows predicate)
      · exact .unsupported _
    · exact .unsupported _
  | call func args keywords =>
    cases keywords with
    | cons keyword rest => exact .unsupported _
    | nil =>
      obtain ⟨kind, location, span⟩ := func
      cases kind with
      | name id =>
        change Follows _ _ _ _ ([.call id] ++ allValueAsks args)
        refine (resolve_follows id args.length).bind fun callee => ?_
        rw [← List.append_nil (allValueAsks args)]
        refine (arguments_follows fun n hn => hparts n ?_).bind (call_follows callee)
        simp [Kind.parts, hn]
      | _ => exact (Follows.unsupported _).locating _
  | _ => exact .unsupported _

theorem exprFollows (n : Node) : ExprFollows options n := by
  induction n using Node.parts_induction with
  | step n ih =>
    obtain ⟨kind, location, span⟩ := n
    exact (exprKind_follows ih).locating ⟨kind, location, span⟩

theorem condition_follows (n : Node) :
    Follows options Builder.IsOpen Builder.IsOpen (condition n) n.valueAsks :=
  asCondition_follows (exprFollows n) n

end Lower

end Blockform
