-- SUMMARY: The order of definitions does not matter: where callees are declared as they are met, a tree may define its functions anywhere (`lower_reordered`).
import Blockform.Proofs.Bracketing
import Blockform.Proofs.Twins
import Blockform.Proofs.WellFormed

/-!
# The order of definitions

A function may be called before it is defined. So its definition may stand
anywhere among the statements of a tree, as long as the other statements keep
their order. Moving it changes the numbers of functions, and the number of
parameters that a function is declared with until its body is attached. It can
also open a block behind a `return`, which nothing branches to, in the entry
function (`Workspace.Loose`). The runs of the program show none of this.
-/

namespace Blockform

variable {options : LowerOptions} {p p' : Program}

/-! ## Reordered statements -/

/-- Does the node define a function? -/
def Node.isDefinition : Node → Bool
  | ⟨.functionDef .., _, _⟩ => true
  | _ => false

theorem Node.isDefinition_eq_true {n : Node} (h : n.isDefinition = true) :
    ∃ name params body, n.kind = .functionDef name params body := by
  obtain ⟨kind, location, span⟩ := n
  cases kind with
  | functionDef name params body => exact ⟨name, params, body, rfl⟩
  | _ => cases h

/-- The lists have the same statements in the same order, up to definitions. -/
inductive Shuffled : List Node → List Node → Prop where
  | nil : Shuffled [] []
  | left {n : Node} {ns ns' : List Node} (hn : n.isDefinition = true) (h : Shuffled ns ns') :
    Shuffled (n :: ns) ns'
  | right {n : Node} {ns ns' : List Node} (hn : n.isDefinition = true) (h : Shuffled ns ns') :
    Shuffled ns (n :: ns')
  | both (n : Node) {ns ns' : List Node} (h : Shuffled ns ns') : Shuffled (n :: ns) (n :: ns')

namespace Shuffled

variable {ns ns' : List Node}

theorem refl (ns : List Node) : Shuffled ns ns := by
  induction ns with
  | nil => exact .nil
  | cons n rest ih => exact .both n ih

/-- Definitions may be put in front. -/
theorem definitions {defs : List Node} (hdefs : ∀ n ∈ defs, n.isDefinition = true)
    (h : Shuffled ns ns') : Shuffled ns (defs ++ ns') := by
  induction defs with
  | nil => exact h
  | cons n rest ih =>
    rw [List.forall_mem_cons] at hdefs
    exact .right hdefs.1 (ih hdefs.2)

/-- What is left of either list without its definitions tells whether they have
    the same statements. -/
theorem of_filter
    (h : ns.filter (fun n => !n.isDefinition) = ns'.filter (fun n => !n.isDefinition)) :
    Shuffled ns ns' := by
  induction ns generalizing ns' with
  | nil =>
    have hdefs : ∀ n ∈ ns', n.isDefinition = true := by simpa using h.symm
    have hshuffled := definitions hdefs .nil
    rwa [List.append_nil] at hshuffled
  | cons n rest ih =>
    cases hn : n.isDefinition with
    | true => exact .left hn (ih (by simpa [hn] using h))
    | false =>
      rw [List.filter_cons_of_pos (by simp [hn])] at h
      obtain ⟨defs, rest', rfl, hdefs, -, hrest⟩ := List.filter_eq_cons_iff.mp h.symm
      exact definitions (by simpa using hdefs) (.both n (ih hrest.symm))

end Shuffled

/-! ## Acceptance -/

namespace Walk

variable {v v' w : Walk} {n : Node} {ns ns' : List Node}

/-- A definition that is accepted in one place is accepted in any other, unless
    one of its functions has been begun there. -/
theorem run_definition (hauto : options.autoDeclareCallees = true) (hn : n.isDefinition = true)
    (hrun : v.run options n.asks = .ok v') (hfresh : w.Fresh n.asks) :
    ∃ w', w.run options n.asks = .ok w' ∧ w'.body = w.body := by
  obtain ⟨name, params, body, hkind⟩ := Node.isDefinition_eq_true hn
  obtain ⟨kind, location, span⟩ := n
  cases hkind
  let node : Node := ⟨.functionDef name params body, location, span⟩
  have hasks : node.asks = .inside node (.enter name params) ::
      ((blockAsks body).map (.inside node) ++ [.inside node .leave]) := by
    simp [node, Node.asks, Kind.asks]
  have hinner : Bracketed ((blockAsks body).map (.inside node)) :=
    (blockAsks_bracketed fun n _ => n.asks_bracketed).inside node
  rw [hasks] at hrun hfresh ⊢
  exact Bracketed.body_anywhere rfl rfl hinner (Bracketed.run_beside hauto hinner) hrun hfresh

/-- Each of a list of statements that are accepted has been accepted somewhere. -/
theorem run_member (h : v.run options (blockAsks ns) = .ok v') (hn : n ∈ ns) :
    ∃ w w' : Walk, w.run options n.asks = .ok w' := by
  induction ns generalizing v with
  | nil => cases hn
  | cons m rest ih =>
    obtain ⟨v₁, hm, hrest⟩ := run_append_eq_ok.mp h
    rcases List.mem_cons.mp hn with rfl | hn
    · exact ⟨v, v₁, hm⟩
    · exact ih hrest hn

/-- Statements are accepted with their definitions in other places, if each of
    the definitions is accepted somewhere and no function is begun twice. -/
theorem run_shuffled (hauto : options.autoDeclareCallees = true) (h : Shuffled ns ns')
    (hrun : v.run options (blockAsks ns) = .ok v') (hbody : w.body = v.body)
    (hdefs : ∀ n ∈ ns', ∃ u u' : Walk, u.run options n.asks = .ok u')
    (hfresh : w.Fresh (blockAsks ns')) : ∃ w', w.run options (blockAsks ns') = .ok w' := by
  induction h generalizing v w with
  | nil => exact ⟨w, rfl⟩
  | @left n ns ns' hn _ ih =>
    obtain ⟨v₁, hv₁, hrest⟩ := run_append_eq_ok.mp hrun
    obtain ⟨_, hsame, hbody₁⟩ := run_definition hauto hn hv₁ (fresh_of_run hv₁)
    cases hv₁.symm.trans hsame
    exact ih hrest (hbody.trans hbody₁.symm) hdefs hfresh
  | @right n ns ns' hn _ ih =>
    rw [List.forall_mem_cons] at hdefs
    obtain ⟨u, u', hu⟩ := hdefs.1
    obtain ⟨w₁, hw₁, hbody₁⟩ := run_definition hauto hn hu hfresh.of_append
    obtain ⟨w', hw'⟩ := ih hrun (hbody₁.trans hbody) hdefs.2 (hfresh.after hw₁)
    exact ⟨w', run_append_eq_ok.mpr ⟨w₁, hw₁, hw'⟩⟩
  | @both n ns ns' _ ih =>
    rw [List.forall_mem_cons] at hdefs
    obtain ⟨v₁, hv₁, hrest⟩ := run_append_eq_ok.mp hrun
    obtain ⟨w₁, hw₁, hbody₁⟩ := n.asks_bracketed.run_beside hauto hv₁ hbody hfresh.of_append
    obtain ⟨w', hw'⟩ := ih hrest hbody₁ hdefs.2 (hfresh.after hw₁)
    exact ⟨w', run_append_eq_ok.mpr ⟨w₁, hw₁, hw'⟩⟩

end Walk

theorem blockDefinitions_eq_flatMap (ns : List Node) :
    blockDefinitions ns = ns.flatMap Node.definitions := by
  induction ns with
  | nil => rfl
  | cons n rest ih => rw [blockDefinitions, ih, List.flatMap_cons]

/-- Whether a tree is accepted does not depend on where its functions are
    defined. -/
theorem Walk.run_reordered (hauto : options.autoDeclareCallees = true) {body body' : List Node}
    (hperm : body.Perm body') (hshuffled : Shuffled body body') {w v : Walk}
    (hrun : w.run options (blockAsks body) = .ok v) :
    ∃ w', w.run options (blockAsks body') = .ok w' := by
  refine run_shuffled hauto hshuffled hrun rfl (fun n hn => ?_) ?_
  · exact run_member hrun (hperm.mem_iff.mpr hn)
  · obtain ⟨hdistinct, hunbegun⟩ := fresh_of_run hrun
    have henters : ((blockAsks body).filterMap Request.enters).Perm
        ((blockAsks body').filterMap Request.enters) := by
      rw [blockAsks_eq_flatMap, blockAsks_eq_flatMap]
      exact (hperm.flatMap_right _).filterMap _
    exact ⟨henters.nodup_iff.mp hdistinct, fun name hname =>
      hunbegun name (henters.mem_iff.mpr hname)⟩

/-! ## Lowering -/

/-- The functions are twins once there is room for a statement in each. -/
def Workspace.Loose (s s' : Workspace) : Prop :=
  ∀ s₁ s₁', Lower.reopen s = .ok () s₁ → Lower.reopen s' = .ok () s₁' → s₁.Twin s₁'

namespace Lower

variable {s s' s₁ t t' : Workspace} {ns ns' : List Node} {n : Node}

theorem loose_of_twin (h : s.Twin s') : s.Loose s' := by
  intro s₁ s₁' h₁ h₁'
  exact (reopen_twins _ _ _ _ _ _ h h₁ h₁').2

/-- A definition leaves the function that it stands in as it is, with room for a
    statement. -/
theorem definition_run (hn : n.isDefinition = true) (h : statement n s = .ok () s') :
    s.context.Grows s'.context ∧ s'.builder = s.builder := by
  refine ⟨statement_grows n _ _ _ h, ?_⟩
  obtain ⟨name, params, body, hkind⟩ := Node.isDefinition_eq_true hn
  have hrun := statement_run h
  rw [hkind] at hrun
  cases hrun with
  | functionDef => rfl
  | value h => cases h

theorem reopen_of_isOpen (h : s.builder.IsOpen) : reopen s = .ok () s :=
  reopen_eq_ok.mpr ⟨h.hasCursor, .inl ⟨h, rfl⟩⟩

/-- Lowering the same statements, with definitions in between anywhere, ends with
    the same function but for room behind the last of them. -/
theorem block_shuffled (h : Shuffled ns ns') (hs : s.Loose s') (hrun : block ns s = .ok () t)
    (hrun' : block ns' s' = .ok () t') : t.Loose t' := by
  induction h generalizing s s' with
  | nil =>
    cases hrun
    cases hrun'
    exact hs
  | @left n ns ns' hn _ ih =>
    obtain ⟨s₁, s₂, hreopen, hstatement, hrest⟩ := block_cons_eq_ok.mp hrun
    obtain ⟨hgrows, hbuilder⟩ := definition_run hn hstatement
    refine ih (fun s₃ s₁' hreopen₂ hreopen' => ?_) hrest hrun'
    have hopen : s₂.builder.IsOpen := hbuilder ▸ reopen_isOpen hreopen
    cases (reopen_of_isOpen hopen).symm.trans hreopen₂
    have htwin := (hs s₁ s₁' hreopen hreopen').grown hgrows (.refl _)
    rwa [← hbuilder] at htwin
  | @right n ns ns' hn _ ih =>
    obtain ⟨s₁', s₂', hreopen', hstatement, hrest⟩ := block_cons_eq_ok.mp hrun'
    obtain ⟨hgrows, hbuilder⟩ := definition_run hn hstatement
    refine ih (fun s₁ s₃' hreopen hreopen₂ => ?_) hrun hrest
    have hopen : s₂'.builder.IsOpen := hbuilder ▸ reopen_isOpen hreopen'
    cases (reopen_of_isOpen hopen).symm.trans hreopen₂
    have htwin := (hs s₁ s₁' hreopen hreopen').grown (.refl _) hgrows
    rwa [← hbuilder] at htwin
  | both n _ ih =>
    obtain ⟨s₁, s₂, hreopen, hstatement, hrest⟩ := block_cons_eq_ok.mp hrun
    obtain ⟨s₁', s₂', hreopen', hstatement', hrest'⟩ := block_cons_eq_ok.mp hrun'
    have htwin := (statement_twins n _ _ _ _ _ _ (hs s₁ s₁' hreopen hreopen') hstatement
      hstatement').2
    exact ih (loose_of_twin htwin) hrest hrest'

/-- The end of a function, told from the state in which there would be room for
    another statement: its blocks are the first of those, once that one is closed. -/
theorem ended_blocks (hcursor : s.builder.HasCursor)
    (hend : (s.builder.IsOpen ∧ t = s.closed (.ret (.int 0))) ∨ (¬ s.builder.IsOpen ∧ t = s)) :
    ∃ s₁, reopen s = .ok () s₁ ∧ s₁.context.program = s.context.program ∧
      t.builder.params = s₁.builder.params ∧ t.builder.slots = s₁.builder.slots ∧
      ∀ i < t.builder.blocks.length,
        t.builder.blocks[i]? = (s₁.closed (.ret (.int 0))).builder.blocks[i]? := by
  rcases hend with ⟨hopen, rfl⟩ | ⟨hclosed, rfl⟩
  · exact ⟨s, reopen_of_isOpen hopen, rfl, rfl, rfl, fun _ _ => rfl⟩
  · refine ⟨_, reopen_eq_ok.mpr ⟨hcursor, .inr ⟨hclosed, rfl⟩⟩, rfl, rfl, rfl, fun i hi => ?_⟩
    have hne : t.builder.blocks.length ≠ i := Nat.ne_of_gt hi
    simp [Workspace.movedTo, Workspace.nextBlock, Builder.addBlock, Builder.close,
      List.getElem?_append_left hi, hne]

end Lower

/-! ## Functions -/

/-- What ends a block of both functions leads to a block of both. -/
theorem Terminator.like_of_leaves {t : Terminator} {f f' : Function} (h : (f.scope p).Leaves t)
    (h' : (f'.scope p').Leaves t) : t.Like Eq (min f.blocks.length f'.blocks.length) t := by
  cases t with
  | ret value => exact .ret (.rfl_eq value)
  | br target => exact .br (Nat.lt_min.mpr ⟨h, h'⟩)
  | condBr cond thenBlock elseBlock =>
    obtain ⟨-, -, hthen, helse⟩ := h
    obtain ⟨-, -, hthen', helse'⟩ := h'
    exact .condBr (.rfl_eq cond) (Nat.lt_min.mpr ⟨hthen, hthen'⟩) (Nat.lt_min.mpr ⟨helse, helse'⟩)

/-- Functions whose blocks are the first ones of twins are similar. -/
theorem Builder.Twin.similar {b b' c c' : Builder} {name : String} (hb : b.Twin p p' b')
    (hparams : c.params = b.params) (hparams' : c'.params = b'.params)
    (hslots : c.slots = b.slots) (hslots' : c'.slots = b'.slots)
    (hblocks : ∀ i < c.blocks.length, c.blocks[i]? = b.blocks[i]?)
    (hblocks' : ∀ i < c'.blocks.length, c'.blocks[i]? = b'.blocks[i]?)
    (hc : 0 < c.blocks.length) (hc' : 0 < c'.blocks.length)
    (hverified : Function.Verified p { c.finish with name })
    (hverified' : Function.Verified p' { c'.finish with name }) :
    Function.Similar p p' { c.finish with name } { c'.finish with name } := by
  refine .built (ρ := Eq) (Nat.lt_min.mpr ⟨hc, hc'⟩) ?_
  refine ⟨⟨fun _ _ _ h h' => h.trans h'.symm, fun _ _ _ h h' => h.symm.trans h'⟩, rfl, ?_, ?_, ?_⟩
  · exact hparams'.trans (hb.params.trans hparams.symm)
  · exact congrArg List.length (hslots'.trans (hb.slots.trans hslots.symm))
  · intro i hi
    obtain ⟨hi, hi'⟩ := Nat.lt_min.mp hi
    have hk : c.blocks[i]? = some c.blocks[i] := List.getElem?_eq_getElem hi
    have hk' : c'.blocks[i]? = some c'.blocks[i] := List.getElem?_eq_getElem hi'
    refine ⟨_, _, hk, hk', ?_⟩
    have htwin := forall₂_getElem? hb.blocks ((hblocks i hi).symm.trans hk)
      ((hblocks' i hi').symm.trans hk')
    obtain ⟨t, ht, hleaves⟩ := hverified.ends _ (List.getElem_mem hi)
    obtain ⟨t', ht', hleaves'⟩ := hverified'.ends _ (List.getElem_mem hi')
    have hsame := htwin.terminator
    rw [ht, ht'] at hsame
    cases hsame
    exact ⟨htwin.ops, t, t, ht, ht', Terminator.like_of_leaves hleaves hleaves'⟩

/-- A definition is compiled to similar functions, wherever it stands and wherever
    the definitions inside of it do. -/
theorem Compiled.similar {name : String} {params : List String} {ns ns' : List Node}
    (hns : Shuffled ns ns') (h : Compiled p ⟨name, params, ns⟩)
    (h' : Compiled p' ⟨name, params, ns'⟩) (hp : p.verify = .ok ()) (hp' : p'.verify = .ok ()) :
    ∃ id id' f f', p.lookup name = some id ∧ p'.lookup name = some id' ∧
      p.function? id = some f ∧ p'.function? id' = some f' ∧ f.Similar p p' f' := by
  cases h with
  | @mk id ctx s t hid hbody hcursor hend hf hgrows =>
    cases h' with
    | @mk id' ctx' s' t' hid' hbody' hcursor' hend' hf' hgrows' =>
      refine ⟨id, id', _, _, hid, hid', hf, hf', ?_⟩
      have hstart : (Workspace.start ctx name params).Twin (.start ctx' name params) :=
        Builder.Twin.start name params
      have hloose := Lower.block_shuffled hns (Lower.loose_of_twin hstart) hbody hbody'
      obtain ⟨s₁, hreopen, hprogram, hparams, hslots, hblocks⟩ := Lower.ended_blocks hcursor hend
      obtain ⟨s₁', hreopen', hprogram', hparams', hslots', hblocks'⟩ :=
        Lower.ended_blocks hcursor' hend'
      have htwin : s₁.builder.Twin p p' s₁'.builder :=
        Builder.Twin.mono (hloose s₁ s₁' hreopen hreopen') (hprogram ▸ hgrows) (hprogram' ▸ hgrows')
      have hlength := Lower.ended_length hcursor hend
      have hlength' := Lower.ended_length hcursor' hend'
      exact (htwin.close (.ret (.int 0))).similar hparams hparams' hslots hslots' hblocks hblocks'
        hlength hlength' (Function.verified_of_blocks hp hf (List.ne_nil_of_length_pos hlength))
        (Function.verified_of_blocks hp' hf' (List.ne_nil_of_length_pos hlength'))

/-! ## Trees -/

theorem mem_moduleNames_of_perm {body body' : List Node} (hperm : body.Perm body') (name : String) :
    name ∈ moduleNames body options ↔ name ∈ moduleNames body' options := by
  have hmentions : ((blockAsks body).filterMap Request.mentions).Perm
      ((blockAsks body').filterMap Request.mentions) := by
    rw [blockAsks_eq_flatMap, blockAsks_eq_flatMap]
    exact (hperm.flatMap_right _).filterMap _
  simp only [moduleNames, List.mem_append, List.mem_cons, hmentions.mem_iff]

section Trees

variable {body body' : List Node} {location : Option Location} {span : Option Span}

theorem lower_of_reordered (hauto : options.autoDeclareCallees = true)
    (hperm : body.Perm body') (hshuffled : Shuffled body body')
    (h : lower ⟨.module body, location, span⟩ options = .ok p) :
    ∃ p', lower ⟨.module body', location, span⟩ options = .ok p' := by
  obtain ⟨w, id, ctx, hrun, -⟩ := lower_module_eq_ok.mp h
  obtain ⟨w', hrun'⟩ := Walk.run_reordered hauto hperm hshuffled hrun
  have hmodule := Context.lowerModule_follows body' options
  rw [hrun'] at hmodule
  obtain ⟨id', ctx', hok, -⟩ := hmodule
  exact ⟨_, lower_of_ok hok location span⟩

/-- The functions of one name are similar: they are made of one definition, or of
    the statements around the definitions, or neither has a body. -/
theorem similar_of_reordered (hperm : body.Perm body') (hshuffled : Shuffled body body')
    (h : lower ⟨.module body, location, span⟩ options = .ok p)
    (h' : lower ⟨.module body', location, span⟩ options = .ok p') : p.Similar p' := by
  obtain ⟨hcovers, hnames⟩ := lower_covers h
  obtain ⟨hcovers', hnames'⟩ := lower_covers h'
  have hp := lower_verify h
  have hp' := lower_verify h'
  have hdefs : (blockDefinitions body).Perm (blockDefinitions body') := by
    rw [blockDefinitions_eq_flatMap, blockDefinitions_eq_flatMap]
    exact hperm.flatMap_right _
  refine ⟨fun name => ?_, fun id id' ⟨name, hid, hid'⟩ => ?_⟩
  · rw [hnames, hnames', mem_moduleNames_of_perm hperm]
  · by_cases hdefined : ∃ d ∈ moduleDefinitions body options, d.name = name
    · obtain ⟨⟨name, params, ns⟩, hd, rfl⟩ := hdefined
      obtain ⟨ns', hd', hns⟩ : ∃ ns', ⟨name, params, ns'⟩ ∈ moduleDefinitions body' options ∧
          Shuffled ns ns' := by
        rcases List.mem_cons.mp hd with heq | hd
        · cases heq
          exact ⟨body', List.mem_cons_self .., hshuffled⟩
        · exact ⟨ns, List.mem_cons_of_mem _ (hdefs.mem_iff.mp hd), .refl ns⟩
      obtain ⟨_, _, f, f', hlookup, hlookup', hf, hf', hsimilar⟩ :=
        (hcovers.compiled _ hd).similar hns (hcovers'.compiled _ hd') hp hp'
      cases hid.symm.trans hlookup
      cases hid'.symm.trans hlookup'
      exact ⟨f, f', hf, hf', hsimilar⟩
    · have hother : ∀ d ∈ moduleDefinitions body options, d.name ≠ name := by
        simpa using hdefined
      have hother' : ∀ d ∈ moduleDefinitions body' options, d.name ≠ name := by
        intro d hd
        rcases List.mem_cons.mp hd with rfl | hd
        · exact hother ⟨options.entryName, [], body⟩ (List.mem_cons_self ..)
        · exact hother d (List.mem_cons_of_mem _ (hdefs.mem_iff.mpr hd))
      obtain ⟨f, hf, hname, hblocks⟩ := hcovers.declared name id hid hother
      obtain ⟨f', hf', hname', hblocks'⟩ := hcovers'.declared name id' hid' hother'
      exact ⟨f, f', hf, hf', .declared (hname'.trans hname.symm) hblocks hblocks'⟩

/-- Where callees are declared as they are met, the definitions of a tree may stand
    anywhere among its statements: the tree is lowered or not all the same, to a
    program with functions of the same names, and every call of one of them ends
    in the same way. -/
theorem lower_reordered (hauto : options.autoDeclareCallees = true) (hperm : body.Perm body')
    (horder : body.filter (fun n => !n.isDefinition) = body'.filter (fun n => !n.isDefinition)) :
    ((∃ p, lower ⟨.module body, location, span⟩ options = .ok p) ↔
      ∃ p', lower ⟨.module body', location, span⟩ options = .ok p') ∧
    ∀ p p', lower ⟨.module body, location, span⟩ options = .ok p →
      lower ⟨.module body', location, span⟩ options = .ok p' →
      (p.functions.map Function.name).Perm (p'.functions.map Function.name) ∧ p.RunsAs p' := by
  have hshuffled : Shuffled body body' := .of_filter horder
  refine ⟨⟨fun ⟨p, h⟩ => ?_, fun ⟨p', h'⟩ => ?_⟩, fun p p' h h' => ?_⟩
  · exact lower_of_reordered hauto hperm hshuffled h
  · exact lower_of_reordered hauto hperm.symm (.of_filter horder.symm) h'
  · have hsimilar := similar_of_reordered hperm hshuffled h h'
    refine ⟨?_, hsimilar.runsAs (lower_verify h)⟩
    refine (List.perm_ext_iff_of_nodup (lower_distinct h) (lower_distinct h')).mpr fun name => ?_
    have hregistered (q : Program) :
        name ∈ q.functions.map Function.name ↔ q.lookup name ≠ none := by
      simp [Program.lookup_eq_none]
    rw [hregistered, hregistered, ne_eq, ne_eq, hsimilar.names]

end Trees

/-- A function that is called before it is defined. -/
def callingFirst : List Node :=
  [.assign "x" (.call "twice" [.int 4]),
    .functionDef "twice" ["n"] [.ret (.binop (.name "n") .add (.name "n"))],
    .ret (.name "x")]

/-- The same statements, with the definition in front. -/
def definingFirst : List Node :=
  [.functionDef "twice" ["n"] [.ret (.binop (.name "n") .add (.name "n"))],
    .assign "x" (.call "twice" [.int 4]),
    .ret (.name "x")]

theorem callingFirst_reordered :
    ∃ p p', lower (.module callingFirst) {} = .ok p ∧ lower (.module definingFirst) {} = .ok p' ∧
      (p.functions.map Function.name).Perm (p'.functions.map Function.name) ∧ p.RunsAs p' := by
  have hperm : callingFirst.Perm definingFirst := .swap _ _ _
  obtain ⟨hlowered, hruns⟩ :=
    @lower_reordered {} callingFirst definingFirst none none rfl hperm rfl
  have hok : (lower (.module callingFirst) {}).isOk = true := by decide +kernel
  cases h : lower (.module callingFirst) {} with
  | error e =>
    rw [h] at hok
    cases hok
  | ok p =>
    obtain ⟨p', h'⟩ := hlowered.mp ⟨p, h⟩
    exact ⟨p, p', rfl, h', hruns p p' h h'⟩

end Blockform
