-- SUMMARY: What a call that fails leaves of a function under construction: all but a slot that a refused write has created (`Builder.failed_call`).
import Blockform.Proofs.Permanence

/-!
# Failed calls

A call on a function under construction fails where the block under the cursor takes
no instruction, or for want of a name. Nothing has been added to a block by then: the
instruction that is refused is the first one of the call. What the call has counted and
allocated before is not taken back, though. The number of a result is used up, which
nobody can tell; and a variable keeps the slot that was made for the value it was to be
written.
-/

namespace Blockform

open Effect

/-! ## Refused instructions -/

namespace Builder

/-- Why the block under the cursor does not take an instruction: it has its terminator,
    or there is none. -/
inductive Rejects (b : Builder) : Abort LoweringError → Prop where
  | closed {k : Block} (h : b.current? = some k) (hk : k.isTerminated = true) :
    b.Rejects (.error (.closed k.label b.name))
  | nowhere (h : b.current? = none) : b.Rejects .noEntry

/-- The number of the next result, used up. -/
def skipped (b : Builder) : Builder := { b with nextInst := b.nextInst + 1 }

variable {b b' : Builder} {e : Abort LoweringError}

theorem Rejects.refusal (h : b.Rejects e) (hc : b.HasCursor) : ∃ refusal, e = .error refusal := by
  cases h with
  | closed => exact ⟨_, rfl⟩
  | nowhere hcurrent =>
    have hblock : b.current? = some b.blocks[b.cursor.val] := List.getElem?_eq_getElem hc
    cases hcurrent.symm.trans hblock

theorem Rejects.of_eq (h : b.Rejects e) (hcurrent : b'.current? = b.current?)
    (hname : b'.name = b.name) : b'.Rejects e := by
  cases h with
  | closed hk hterminated => exact hname ▸ .closed (hcurrent.trans hk) hterminated
  | nowhere hk => exact .nowhere (hcurrent.trans hk)

theorem rejects_skipped : b.skipped.Rejects e ↔ b.Rejects e :=
  ⟨fun h => h.of_eq rfl rfl, fun h => h.of_eq rfl rfl⟩

theorem rejects_withSlot {name : String} : (b.withSlot name).Rejects e ↔ b.Rejects e := by
  have hsame : (b.withSlot name).current? = b.current? ∧ (b.withSlot name).name = b.name := by
    unfold Builder.withSlot ensureSlot
    cases b.slot? name <;> exact ⟨rfl, rfl⟩
  exact ⟨fun h => h.of_eq hsame.1.symm hsame.2.symm, fun h => h.of_eq hsame.1 hsame.2⟩

end Builder

namespace Build

open Builder

variable {b b' : Builder} {e : Abort LoweringError} {v : Value}

theorem whenOpen_eq_error {change : Builder → Builder} :
    whenOpen change b = .error e b' ↔ b.Rejects e ∧ b' = b := by
  unfold whenOpen
  cases hk : b.current? with
  | none =>
    rw [bind_of_error (current_of_none hk)]
    constructor
    · rintro ⟨⟩
      exact ⟨.nowhere hk, rfl⟩
    · rintro ⟨hrejects, rfl⟩
      cases hrejects with
      | closed hcurrent => cases hcurrent.symm.trans hk
      | nowhere => rfl
  | some k =>
    rw [bind_of_ok (current_of_some hk)]
    cases hends : k.isTerminated with
    | false =>
      refine iff_of_false (fun h => nomatch h) fun ⟨hrejects, _⟩ => ?_
      cases hrejects with
      | closed hcurrent hterminated =>
        obtain rfl := Option.some.inj (hcurrent.symm.trans hk)
        rw [hends] at hterminated
        cases hterminated
      | nowhere hcurrent => cases hcurrent.symm.trans hk
    | true =>
      have hfail : (throw (.error (.closed k.label b.name)) : Build Unit) b =
          .error (.error (.closed k.label b.name)) b := rfl
      constructor
      · rintro ⟨⟩
        exact ⟨.closed hk hends, rfl⟩
      · rintro ⟨hrejects, rfl⟩
        cases hrejects with
        | closed hcurrent =>
          obtain rfl := Option.some.inj (hcurrent.symm.trans hk)
          rfl
        | nowhere hcurrent => cases hcurrent.symm.trans hk

theorem define_eq_error {ty : Ty} {op : InstId → Op} :
    define ty op b = .error e b' ↔ b.Rejects e ∧ b' = b.skipped := by
  have hfresh : fresh b = .ok ⟨b.nextInst⟩ b.skipped := rfl
  unfold define
  rw [bind_of_ok hfresh, bind_eq_error, emit, whenOpen_eq_error]
  rw [rejects_skipped]
  constructor
  · rintro (hfail | ⟨u, b₁, -, hpure⟩)
    · exact hfail
    · cases hpure
  · exact .inl

theorem toInt_eq_error :
    toInt v b = .error e b' ↔ v.ty = .i1 ∧ b.Rejects e ∧ b' = b.skipped := by
  unfold toInt
  cases hty : v.ty with
  | i32 => exact iff_of_false (fun h => nomatch h) (fun ⟨heq, _⟩ => nomatch heq)
  | i1 => simp [define_eq_error]

theorem toBool_eq_error :
    toBool v b = .error e b' ↔ v.ty = .i32 ∧ b.Rejects e ∧ b' = b.skipped := by
  unfold toBool
  cases hty : v.ty with
  | i1 => exact iff_of_false (fun h => nomatch h) (fun ⟨heq, _⟩ => nomatch heq)
  | i32 => simp [icmp, define_eq_error]

theorem read_eq_error {name : String} (h : read name b = .error e b') :
    (e = .error (.unbound name b.name) ∧ b' = b) ∨ (b.Rejects e ∧ b' = b.skipped) := by
  have hget : (get : Build Builder) b = .ok b b := rfl
  unfold read at h
  rw [bind_of_ok hget] at h
  cases hparam : b.param? name with
  | some arg =>
    rw [hparam] at h
    cases h
  | none =>
    rw [hparam] at h
    cases hslot : b.slot? name with
    | some slot =>
      rw [hslot] at h
      exact .inr (define_eq_error.mp h)
    | none =>
      rw [hslot] at h
      cases h
      exact .inl ⟨rfl, rfl⟩

/-- A truth value is widened first. If that succeeds the block is open, and what
    follows succeeds as well. -/
theorem toInt_then_eq_error {f : Value → Build Unit}
    (hf : ∀ w b₁, b₁.IsOpen → ∃ b₂, f w b₁ = .ok () b₂) :
    (toInt v >>= f) b = .error e b' ↔
      (v.ty = .i1 ∧ b.Rejects e ∧ b' = b.skipped) ∨ (v.ty = .i32 ∧ f v b = .error e b') := by
  rw [bind_eq_error, toInt_eq_error]
  refine or_congr_right ?_
  constructor
  · rintro ⟨w, b₁, hint, hfail⟩
    obtain ⟨hty, rfl, rfl⟩ | ⟨-, hopen, rfl, rfl⟩ := toInt_eq_ok.mp hint
    · exact ⟨hty, hfail⟩
    · obtain ⟨b₂, hok⟩ := hf _ _ (isOpen_emitted.mpr hopen)
      cases hok.symm.trans hfail
  · rintro ⟨hty, hfail⟩
    exact ⟨v, b, toInt_eq_ok.mpr (.inl ⟨hty, rfl, rfl⟩), hfail⟩

theorem ret_eq_error (h : ret v b = .error e b') :
    b.Rejects e ∧ (b' = b ∨ b' = b.skipped) := by
  have hends (w : Value) (b₁ : Builder) (hopen : b₁.IsOpen) :
      ∃ b₂, terminate (.ret w) b₁ = .ok () b₂ := ⟨_, terminate_of_open hopen _⟩
  obtain ⟨-, hrejects, rfl⟩ | ⟨-, hfail⟩ := (toInt_then_eq_error hends).mp h
  · exact ⟨hrejects, .inr rfl⟩
  · obtain ⟨hrejects, rfl⟩ := whenOpen_eq_error.mp hfail
    exact ⟨hrejects, .inl rfl⟩

/-- The slot of an integer has been created by the time that the write is refused. -/
theorem write_eq_error {name : String} (h : write name v b = .error e b') :
    b.Rejects e ∧ ((v.ty = .i1 ∧ b' = b.skipped) ∨ (v.ty = .i32 ∧ b' = b.withSlot name)) := by
  have hstore (w : Value) (b₁ : Builder) :
      ((modifyGet fun b => b.ensureSlot name) >>= fun slot =>
          emit (.store w slot) : Build Unit) b₁ =
        emit (.store w (b₁.ensureSlot name).1) (b₁.withSlot name) := rfl
  have hends (w : Value) (b₁ : Builder) (hopen : b₁.IsOpen) :
      ∃ b₂, ((modifyGet fun b => b.ensureSlot name) >>= fun slot =>
          emit (.store w slot) : Build Unit) b₁ = .ok () b₂ :=
    ⟨_, (hstore w b₁).trans (emit_of_open (isOpen_withSlot.mpr hopen) _)⟩
  obtain ⟨hty, hrejects, rfl⟩ | ⟨hty, hfail⟩ := (toInt_then_eq_error hends).mp h
  · exact ⟨hrejects, .inl ⟨hty, rfl⟩⟩
  · rw [hstore] at hfail
    obtain ⟨hrejects, rfl⟩ := whenOpen_eq_error.mp hfail
    exact ⟨rejects_withSlot.mp hrejects, .inr ⟨hty, rfl⟩⟩

end Build

/-! ## Calls -/

namespace Builder

/-- The slot that the call leaves if it fails: the one of a variable without a slot that
    an integer was to be written to. -/
def Call.leftover (b : Builder) : Call → Option Slot
  | .write name value => if value.ty = .i32 ∧ b.slot? name = none then some ⟨name⟩ else none
  | _ => none

/-- The function with the slot that the call leaves if it fails. -/
def withLeftover (b : Builder) (c : Call) : Builder := (c.leftover b).elim b b.addSlot

/-- The function that a failed call leaves. -/
structure Left (b : Builder) (c : Call) (e : Abort LoweringError) (b' : Builder) : Prop where
  state : ∃ n, b' = { b.withLeftover c with nextInst := n }
  refusal : b.HasCursor → ∃ refusal, e = .error refusal

variable {b b' : Builder} {c : Call} {e : Abort LoweringError}

theorem Left.of_rejects (h : b.Rejects e) (hc : c.leftover b = none)
    (hstate : b' = b ∨ b' = b.skipped) : b.Left c e b' := by
  refine ⟨?_, h.refusal⟩
  rw [withLeftover, hc, Option.elim_none]
  rcases hstate with rfl | rfl
  · exact ⟨b'.nextInst, rfl⟩
  · exact ⟨b.nextInst + 1, rfl⟩

theorem withSlot_eq_leftover {name : String} {v : Value} (hty : v.ty = .i32) :
    b.withSlot name = b.withLeftover (.write name v) := by
  unfold Builder.withSlot ensureSlot withLeftover Call.leftover
  cases hslot : b.slot? name <;> simp [hty, hslot]

theorem Call.left (h : c.step b = .error e b') : b.Left c e b' := by
  have hmap {x : Build Value} (h : (some <$> x) b = .error e b') : x b = .error e b' := by
    obtain hx | ⟨a, b₁, -, hpure⟩ := bind_eq_error.mp h
    · exact hx
    · cases hpure
  have hunit {x : Build Unit} (h : (do x; return none : Build (Option Value)) b = .error e b') :
      x b = .error e b' := by
    obtain hx | ⟨a, b₁, -, hpure⟩ := bind_eq_error.mp h
    · exact hx
    · cases hpure
  have hdefine {ty : Ty} {op : InstId → Op} (hc : c.leftover b = none)
      (h : Build.define ty op b = .error e b') : b.Left c e b' := by
    obtain ⟨hrejects, rfl⟩ := Build.define_eq_error.mp h
    exact .of_rejects hrejects hc (.inr rfl)
  have hwhenOpen {change : Builder → Builder} (hc : c.leftover b = none)
      (h : Build.whenOpen change b = .error e b') : b.Left c e b' := by
    obtain ⟨hrejects, rfl⟩ := Build.whenOpen_eq_error.mp h
    exact .of_rejects hrejects hc (.inl rfl)
  cases c with
  | newBlock label => cases h
  | moveTo block => cases h
  | read name =>
    obtain ⟨rfl, rfl⟩ | ⟨hrejects, rfl⟩ := Build.read_eq_error (hmap h)
    · exact ⟨⟨b'.nextInst, rfl⟩, fun _ => ⟨_, rfl⟩⟩
    · exact .of_rejects hrejects rfl (.inr rfl)
  | write name value =>
    obtain ⟨hrejects, ⟨hty, rfl⟩ | ⟨hty, rfl⟩⟩ := Build.write_eq_error (hunit h)
    · exact .of_rejects hrejects (by simp [leftover, hty]) (.inr rfl)
    · exact ⟨⟨(b.withSlot name).nextInst, by rw [withSlot_eq_leftover hty]⟩, hrejects.refusal⟩
  | load slot => exact hdefine rfl (hmap h)
  | binary op lhs rhs => exact hdefine rfl (hmap h)
  | neg operand => exact hdefine rfl (hmap h)
  | icmp pred lhs rhs => exact hdefine rfl (hmap h)
  | call callee args => exact hdefine rfl (hmap h)
  | toInt value =>
    obtain ⟨-, hrejects, rfl⟩ := Build.toInt_eq_error.mp (hmap h)
    exact .of_rejects hrejects rfl (.inr rfl)
  | toBool value =>
    obtain ⟨-, hrejects, rfl⟩ := Build.toBool_eq_error.mp (hmap h)
    exact .of_rejects hrejects rfl (.inr rfl)
  | ret value =>
    obtain ⟨hrejects, hstate⟩ := Build.ret_eq_error (hunit h)
    exact .of_rejects hrejects rfl hstate
  | br target => exact hwhenOpen rfl (hunit h)
  | condBr cond thenBlock elseBlock => exact hwhenOpen rfl (hunit h)
  | emit op => exact hwhenOpen rfl (hunit h)
  | terminate t => exact hwhenOpen rfl (hunit h)

/-- A slot that is left behind is that of a variable which had none. -/
theorem Call.slot?_of_leftover {s : Slot} (h : c.leftover b = some s) : b.slot? s.name = none := by
  cases c with
  | write name value =>
    rw [leftover] at h
    split at h
    · next hnew =>
      cases h
      exact hnew.2
    · cases h
  | _ => cases h

theorem slot?_withLeftover (b : Builder) (c : Call) (name : String) :
    (b.withLeftover c).slot? name =
      if c.leftover b = some ⟨name⟩ then some ⟨b.slots.length⟩ else b.slot? name := by
  unfold withLeftover
  cases hleft : c.leftover b with
  | none =>
    rw [if_neg nofun]
    rfl
  | some s =>
    have hnew := Call.slot?_of_leftover hleft
    rw [Option.elim_some, slot?_addSlot]
    by_cases hname : s.name = name
    · obtain rfl := hname
      rw [hnew, if_pos rfl, if_pos rfl, Option.none_or]
    · have hne : some s ≠ some ⟨name⟩ := fun heq => hname (congrArg Slot.name (Option.some.inj heq))
      rw [if_neg hname, if_neg hne, Option.or_none]

/-- A call that fails leaves the blocks, the cursor and the names as they were, and
    its failure is reported if the cursor is on a block. Only one thing may have been
    added: the slot of a variable that had none, where the call was to write an integer
    to it. That variable, and no other, is found in another way than before. -/
theorem failed_call (h : c.step b = .error e b') :
    (∃ n, b' = { b.withLeftover c with nextInst := n }) ∧
      (∀ name, b'.slot? name =
        if c.leftover b = some ⟨name⟩ then some ⟨b.slots.length⟩ else b.slot? name) ∧
      (b.HasCursor → ∃ refusal, e = .error refusal) := by
  obtain ⟨⟨n, rfl⟩, hrefusal⟩ := Call.left h
  exact ⟨⟨n, rfl⟩, slot?_withLeftover b c, hrefusal⟩

/-- A function that has returned already. -/
def ended : Builder := (start "f" []).close (.ret (.int 0))

/-- A truth value cannot be written to it. It would have been widened first, so that no
    slot was created. -/
theorem ended_refuses_truth :
    ∃ e b', (Call.write "x" (.bool true)).step ended = .error e b' ∧ b'.blocks = ended.blocks ∧
      b'.cursor = ended.cursor ∧ b'.slots = [] ∧ ∀ name, b'.slot? name = ended.slot? name := by
  have hnothing : (Call.write "x" (.bool true)).leftover ended = none := by decide
  cases h : (Call.write "x" (.bool true)).step ended with
  | ok answer b' => cases h
  | error e b' =>
    obtain ⟨⟨n, hstate⟩, hslots, -⟩ := failed_call h
    rw [hnothing] at hslots
    rw [withLeftover, hnothing, Option.elim_none] at hstate
    exact ⟨e, b', rfl, hstate ▸ rfl, hstate ▸ rfl, hstate ▸ rfl, hslots⟩

/-- An integer cannot be written to it either, but its slot is there afterwards. -/
theorem refused_write_leaves_slot :
    ∃ e b', ended.HasCursor ∧ (Call.write "x" (.int 1)).step ended = .error (.error e) b' ∧
      ended.slot? "x" = none ∧ b'.slot? "x" = some ⟨0⟩ ∧ b'.slots ≠ ended.slots :=
  ⟨_, _, Nat.zero_lt_one, rfl, rfl, by decide, by decide⟩

end Builder

end Blockform
