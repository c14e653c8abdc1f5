import PageSlots.Proofs.Page.Simulation

/-!
# Who fills a slot

A slot of a component can be filled by several children, by attributes
that are promoted to it and by a fallback. `applyRule_children` says who
does. Of the children, with old slot names replaced, the first one for a
slot stays (`explicitChildren`). A promotion contributes a template if its
slot is filled neither by a child nor by an earlier promotion, and if its
attribute is there or the rule has a fallback (`contributions`). The
templates stand before the children, in the order of the rule.

All promoted attributes are taken off. Flags are set last, so one of them
is there again if it is the name of a flag.
-/

namespace PageSlots.Page

open PageSlots.Component PageSlots.Markup PageSlots.Markup.Content PageSlots.Markup.Tree
open PageSlots.Slot

/-! ## Contributions -/

/-- **What a promotion contributes**: the slot that is filled, and how what
fills it is rendered. -/
structure Contribution where
  /-- The slot. -/
  slot : String
  /-- What is rendered. -/
  call : RenderCall
  deriving DecidableEq

/-- **What promotions contribute** to a component, given the slots that are
filled already. The attribute goes before the fallback. -/
def contributions (o : Own) : List String → List Promotion → List Contribution
  | _, [] => []
  | taken, promotion :: promotions =>
    match if promotion.slot ∈ taken then none
      else (o.attr? promotion.attr).or promotion.fallback with
    | none => contributions o taken promotions
    | some source => ⟨promotion.slot, ⟨promotion.content, source⟩⟩ ::
        contributions o (promotion.slot :: taken) promotions

/-- **Contributions are rendered**, the first one after `n` calls: the
renderer answers to each with markup that reads as contents. -/
inductive Rendered (renderer : Renderer) :
    Nat → List Contribution → List (List Content) → Prop where
  /-- There is nothing to render. -/
  | nil {n : Nat} : Rendered renderer n [] []
  /-- One more is rendered before the others. -/
  | cons {n : Nat} {k : Contribution} {ks : List Contribution} {markup : String}
      {cs : List Content} {css : List (List Content)} :
      renderer.answer n k.call = .ok markup → ReadsAs markup cs →
      Rendered renderer (n + 1) ks css → Rendered renderer n (k :: ks) (cs :: css)

/-- The templates of contributions. -/
def templates (ks : List Contribution) (css : List (List Content)) : List Content :=
  List.zipWith (fun k cs => Value.template k.slot cs) ks css

variable {o o' : Own} {taken : List String} {promotion : Promotion} {promotions : List Promotion}

/-- A promotion whose slot is filled, or that has no source. -/
theorem contributions_of_none
    (h : promotion.slot ∈ taken ∨ (o.attr? promotion.attr).or promotion.fallback = none) :
    contributions o taken (promotion :: promotions) = contributions o taken promotions := by
  rw [contributions]
  by_cases hs : promotion.slot ∈ taken
  · rw [if_pos hs]
  · rw [if_neg hs, h.resolve_left hs]

/-- A promotion that fills its slot. -/
theorem contributions_of_some {source : String} (hs : promotion.slot ∉ taken)
    (h : (o.attr? promotion.attr).or promotion.fallback = some source) :
    contributions o taken (promotion :: promotions)
      = ⟨promotion.slot, ⟨promotion.content, source⟩⟩ ::
        contributions o (promotion.slot :: taken) promotions := by
  rw [contributions, if_neg hs, h]

/-- **A promotion contributes a template** exactly if its slot is filled
neither by a child nor by an earlier promotion, and if it has a source. -/
theorem contributions_concat (o : Own) (promotion : Promotion) :
    ∀ (taken : List String) (promotions : List Promotion),
      contributions o taken (promotions ++ [promotion]) = contributions o taken promotions
        ++ if promotion.slot ∈ taken
            ∨ promotion.slot ∈ (contributions o taken promotions).map (·.slot) then []
          else ((o.attr? promotion.attr).or promotion.fallback).toList.map fun source =>
            ⟨promotion.slot, ⟨promotion.content, source⟩⟩
  | taken, [] => by
    rw [List.nil_append, contributions, contributions]
    by_cases hs : promotion.slot ∈ taken
    · rw [if_pos hs, if_pos (.inl hs)]
      rfl
    · rw [if_neg hs, if_neg (by simpa using hs)]
      cases (o.attr? promotion.attr).or promotion.fallback <;> rfl
  | taken, q :: promotions => by
    rw [List.cons_append, contributions, contributions]
    split
    · exact contributions_concat o promotion taken promotions
    · rw [contributions_concat o promotion (q.slot :: taken) promotions, List.cons_append]
      congr 3
      rw [List.mem_cons, List.map_cons, List.mem_cons]
      exact propext (or_assoc.trans or_left_comm)

/-- Only the promoted attributes matter. -/
theorem contributions_congr (h : ∀ q ∈ promotions, o'.attr? q.attr = o.attr? q.attr) :
    ∀ taken, contributions o' taken promotions = contributions o taken promotions := by
  induction promotions with
  | nil => exact fun _ => rfl
  | cons q promotions ih =>
    intro taken
    have ih := ih fun r hr => h r (List.mem_cons_of_mem _ hr)
    rw [contributions, contributions, h q List.mem_cons_self]
    split
    · exact ih taken
    · rw [ih]

/-! ## The promotions of a content -/

section Values

variable {renderer : Renderer} {index : Nat} {c : Content} {notes : Notes}

/-- A promotion that contributes nothing. -/
theorem promote_eq_of_none (renderer : Renderer) (index : Nat) (notes : Notes)
    (h : Value.filled c promotion.slot = true
      ∨ (c.own.attr? promotion.attr).or promotion.fallback = none) :
    ∃ log, Value.promote renderer index promotion c notes
      = .ok (false, c.mapOwn (Own.removeAttr promotion.attr))
        { notes with log := notes.log ++ log } := by
  have hsame : notes = { notes with log := notes.log ++ [] } := by rw [List.append_nil]
  unfold Value.promote
  dsimp only
  by_cases hf : Value.filled c promotion.slot = true
  · rw [if_pos (show Value.filled (c.mapOwn _) promotion.slot = true from hf)]
    split
    · exact ⟨_, rfl⟩
    · exact ⟨[], congrArg (EStateM.Result.ok _) hsame⟩
  · rw [if_neg (show ¬ Value.filled (c.mapOwn _) promotion.slot = true from hf),
      h.resolve_left hf]
    exact ⟨[], congrArg (EStateM.Result.ok _) hsame⟩

/-- A promotion that contributes a template. -/
theorem promote_eq_of_some (index : Nat) {source markup : String} {cs : List Content}
    (hf : ¬ Value.filled c promotion.slot = true)
    (hv : (c.own.attr? promotion.attr).or promotion.fallback = some source)
    (ha : renderer.answer notes.calls.length ⟨promotion.content, source⟩ = .ok markup)
    (hp : (Content.parse markup).1 = .ok cs) :
    ∃ log, Value.promote renderer index promotion c notes
      = .ok (true, .node (c.own.removeAttr promotion.attr)
          (c.children.insertIdx (min index c.children.length)
            (Value.template promotion.slot cs)))
        { notes with calls := notes.calls ++ [⟨promotion.content, source⟩]
                     log := notes.log ++ log } := by
  have hrender : Value.render renderer promotion.content source notes = .ok markup
      { notes with calls := notes.calls ++ [⟨promotion.content, source⟩] } := by
    unfold Value.render
    dsimp only
    rw [ha]
  have hread : ∀ notes : Notes, Value.read markup notes = .ok cs
      { notes with log := notes.log ++ (Content.parse markup).2 } := fun notes => by
    unfold Value.read
    dsimp only
    rw [hp]
  unfold Value.promote
  dsimp only
  rw [if_neg (show ¬ Value.filled (c.mapOwn _) promotion.slot = true from hf), hv]
  dsimp only
  rw [bind_of_ok hrender, bind_of_ok (hread _), bind_of_ok (value_tell_eq _ _)]
  dsimp only
  rw [List.append_assoc]
  exact ⟨_, rfl⟩

/-- Filling a slot takes it. -/
theorem mem_slotsOf_template {before old : List Content} {slot slot' : String} (h : slot ≠ "")
    (cs : List Content) :
    slot' ∈ slotsOf (before ++ Value.template slot cs :: old)
      ↔ slot' ∈ slot :: slotsOf (before ++ old) := by
  unfold slotsOf
  rw [List.filterMap_append, List.filterMap_append,
    List.filterMap_cons_some (slotOf_template h cs), List.mem_append, List.mem_cons, List.mem_cons,
    List.mem_append]
  exact or_left_comm

/-- **Promotions, run one after the other, contribute what they are said
to contribute**, in front of the other children. -/
theorem promoteAll_eq (hs : ∀ q ∈ promotions, q.slot ≠ "")
    (hn : (promotions.map (·.attr)).Nodup) :
    ∀ (c : Content) (notes : Notes) (before : List Content) {taken : List String}
      {old : List Content} {css : List (List Content)},
      (∀ slot, slot ∈ taken ↔ slot ∈ slotsOf c.children) → c.children = before ++ old →
      Rendered renderer notes.calls.length (contributions c.own taken promotions) css →
      ∃ log, Value.promoteAll renderer before.length promotions c notes
        = .ok (.node (c.own.removeAttrs (promotions.map (·.attr)))
            (before ++ templates (contributions c.own taken promotions) css ++ old))
          { notes with
            calls := notes.calls ++ (contributions c.own taken promotions).map (·.call)
            log := notes.log ++ log } := by
  induction promotions with
  | nil =>
    intro c notes before taken old css _ hch hr
    cases hr with
    | nil =>
      refine ⟨[], ?_⟩
      show EStateM.Result.ok c notes = .ok (.node c.own (before ++ [] ++ old))
        { notes with calls := notes.calls ++ [], log := notes.log ++ [] }
      rw [List.append_nil, List.append_nil, List.append_nil, ← hch, node_own_children]
  | cons q promotions ih =>
    intro c notes before taken old css ht hch hr
    obtain ⟨hq, hn⟩ := List.nodup_cons.1 hn
    have hs' := fun r hr => hs r (List.mem_cons_of_mem q hr)
    -- the attribute that is taken off is no other promotion's
    have hcongr : ∀ taken, contributions (c.own.removeAttr q.attr) taken promotions
        = contributions c.own taken promotions :=
      contributions_congr fun r hr => Own.attr?_removeAttr_of_ne fun he =>
        hq (List.mem_map.2 ⟨r, hr, he.symm⟩)
    by_cases hskip : q.slot ∈ taken ∨ (c.own.attr? q.attr).or q.fallback = none
    · rw [contributions_of_none hskip] at hr ⊢
      obtain ⟨log, hp⟩ := promote_eq_of_none renderer before.length notes
        (hskip.imp_left fun h => filled_iff.2 ((ht q.slot).1 h))
      obtain ⟨log', hall⟩ := ih hs' hn (c.mapOwn (Own.removeAttr q.attr))
        { notes with log := notes.log ++ log } before ht hch ((hcongr taken).symm ▸ hr)
      refine ⟨log ++ log', ?_⟩
      rw [Value.promoteAll, bind_of_ok hp]
      dsimp only
      rw [if_neg Bool.false_ne_true, hall, own_mapOwn, hcongr, List.append_assoc notes.log]
      rfl
    · rw [not_or] at hskip
      obtain ⟨hfree, hsource⟩ := hskip
      obtain ⟨source, hv⟩ := Option.ne_none_iff_exists'.1 hsource
      rw [contributions_of_some hfree hv] at hr ⊢
      cases hr with
      | @cons _ _ _ markup cs css ha hreads hr =>
        obtain ⟨log, hp⟩ := promote_eq_of_some before.length
          (fun h => hfree ((ht q.slot).2 (filled_iff.1 h))) hv ha hreads.parse_eq
        rw [hch, insertIdx_append] at hp
        -- the template stands before the next one, and its slot is taken
        have hlen : before.length + 1 = (before ++ [Value.template q.slot cs]).length := by
          rw [List.length_append, List.length_singleton]
        have htaken : ∀ slot, slot ∈ q.slot :: taken
            ↔ slot ∈ slotsOf (before ++ Value.template q.slot cs :: old) := fun slot => by
          rw [mem_slotsOf_template (hs q List.mem_cons_self), ← hch, List.mem_cons, List.mem_cons,
            ht]
        have hrest : Rendered renderer
            (notes.calls ++ [(⟨q.content, source⟩ : RenderCall)]).length
            (contributions (c.own.removeAttr q.attr) (q.slot :: taken) promotions) css := by
          rw [hcongr, List.length_append]
          exact hr
        obtain ⟨log', hall⟩ := ih hs' hn
          (.node (c.own.removeAttr q.attr) (before ++ Value.template q.slot cs :: old))
          { notes with calls := notes.calls ++ [⟨q.content, source⟩], log := notes.log ++ log }
          (before ++ [Value.template q.slot cs]) htaken (List.append_cons _ _ _) hrest
        refine ⟨log ++ log', ?_⟩
        rw [Value.promoteAll, bind_of_ok hp]
        dsimp only
        rw [if_pos rfl, hlen, hall, own_node, hcongr, List.append_assoc notes.log,
          List.append_assoc notes.calls, List.append_assoc before]
        rfl

end Values

/-! ## The rule of a component -/

/-- The slot that a child of a component fills once old names are
replaced. -/
def currentSlot (t : Tree) (renames : List Rename) (k : NodeId) : Option String :=
  (t.own k).renamedSlot renames

/-- **The explicit children of a component**: of the children for one slot
the first. -/
def explicitChildren (t : Tree) (id : NodeId) (renames : List Rename) : List NodeId :=
  keepFirst (currentSlot t renames) [] (t.children id)

/-- **What the promotions of a rule contribute** to a component. -/
def ruleContributions (t : Tree) (id : NodeId) (rule : Rule) : List Contribution :=
  contributions (t.own id)
    ((explicitChildren t id rule.renames).filterMap (currentSlot t rule.renames)) rule.promotions

section Rule

variable {renderer : Renderer} {rule : Rule} {c : Content} {notes : Notes}

/-- The slots of the explicit contents are those of the explicit
children. -/
theorem slotsOf_explicit_eq {t : Tree} {id : NodeId} (hc : t.Shows id c) {renames : List Rename}
    (ht : ∀ r ∈ renames, r.target ≠ "") :
    (explicitChildren t id renames).filterMap (currentSlot t renames)
      = slotsOf (Value.explicit renames c.children) := by
  have hrel : List.Forall₂ (fun k d => currentSlot t renames k = Value.slotOf d) (t.children id)
      (Value.renameSlots renames c.children) :=
    List.forall₂_map_right_iff.2 (hc.children.imp fun k e hs => by
      rw [currentSlot, hs.own_eq, ← Own.slotName_renameSlot ht, Value.slotOf, own_mapOwn])
  exact filterMap_eq_of_forall₂ (forall₂_keepFirst hrel _ _ (fun _ _ h => h) []).1 fun _ _ h => h

theorem value_checkPlace_eq (rule : Rule) (tag : String) (notes : Notes) :
    ∃ log, Value.checkPlace rule tag notes = .ok () { notes with log := notes.log ++ log } := by
  unfold Value.checkPlace
  rw [bind_of_ok (get_eq notes)]
  split
  · refine ⟨[], ?_⟩
    rw [List.append_nil]
    rfl
  · exact ⟨_, rfl⟩

/-- The rule of a component, as a function. -/
theorem value_applyRule_eq (notes : Notes) (hs : ∀ q ∈ rule.promotions, q.slot ≠ "")
    (hn : (rule.promotions.map (·.attr)).Nodup) {css : List (List Content)}
    (hr : Rendered renderer notes.calls.length (contributions c.own
      (slotsOf (Value.explicit rule.renames c.children)) rule.promotions) css) :
    ∃ filled log, Value.applyRule renderer rule c notes
      = .ok (.node
          ((c.own.removeAttrs (rule.promotions.map (·.attr))).applyFixups filled rule.fixups)
          (templates (contributions c.own (slotsOf (Value.explicit rule.renames c.children))
            rule.promotions) css ++ Value.explicit rule.renames c.children))
        { notes with
          calls := notes.calls ++ (contributions c.own
            (slotsOf (Value.explicit rule.renames c.children)) rule.promotions).map (·.call)
          log := notes.log ++ log } := by
  obtain ⟨log₁, hplace⟩ := value_checkPlace_eq rule c.own.tag notes
  obtain ⟨log₂, hall⟩ := promoteAll_eq hs hn
    (.node c.own (Value.explicit rule.renames c.children))
    { notes with log := notes.log ++ log₁ ++ Value.slotsLog c.own.tag rule.renames c.children }
    [] (fun _ => Iff.rfl) rfl hr
  unfold Value.applyRule
  rw [bind_of_ok hplace, bind_of_ok (value_tell_eq _ _)]
  dsimp only
  rw [show (0 : Nat) = ([] : List Content).length from rfl, bind_of_ok hall]
  dsimp only
  rw [List.append_assoc notes.log, List.append_assoc notes.log]
  exact ⟨_, _, rfl⟩

/-- After flags are set, a name that had been taken off is there only as a
flag. -/
theorem attr?_applyFixups {o : Own} {name value : String} (ho : name ∉ o.names)
    (filled : String → Bool) (fixups : List Fixup)
    (h : (o.applyFixups filled fixups).attr? name = some value) :
    value = "" ∧ ∃ fixup ∈ fixups, fixup.flag = name := by
  revert h
  refine Own.applyFixups_induct (P := fun o => o.attr? name = some value →
    value = "" ∧ ∃ fixup ∈ fixups, fixup.flag = name) filled (fun h => ?_) fun o fixup hf hp h => ?_
  · rw [Own.attr?_eq_none_iff.2 ho] at h
    cases h
  · by_cases he : fixup.flag = name
    · rw [he, Own.attr?_setAttr_self] at h
      cases h
      exact ⟨rfl, fixup, hf, he⟩
    · rw [Own.attr?_setAttr_of_ne he] at h
      exact hp h

/-- **Who fills the slots of a component.** If what its promotions
contribute is rendered, the rule is applied: the children are afterwards
the templates of the contributions, in the order of the rule and each over
what was rendered for it, and then the explicit children as they stood. A
promoted attribute is there again only as a flag. -/
theorem applyRule_children {run : Run} {id : NodeId} {css : List (List Content)}
    (h : run.tree.WellFormed) (he : run.tree.isElement id = true)
    (hn : (rule.promotions.map (·.attr)).Nodup) (hs : ∀ q ∈ rule.promotions, q.slot ≠ "")
    (ht : ∀ r ∈ rule.renames, r.target ≠ "")
    (hr : Rendered renderer run.calls.length (ruleContributions run.tree id rule) css) :
    ∃ run' ids, applyRule renderer id rule run = .ok () run'
      ∧ run'.tree.children id = ids ++ explicitChildren run.tree id rule.renames
      ∧ List.Forall₂ run'.tree.Shows ids (templates (ruleContributions run.tree id rule) css)
      ∧ run'.calls = run.calls ++ (ruleContributions run.tree id rule).map (·.call)
      ∧ ∀ q ∈ rule.promotions, ∀ value, run'.tree.attr? id q.attr = some value →
        value = "" ∧ ∃ fixup ∈ rule.fixups, fixup.flag = q.attr := by
  have hid : id < run.tree.size := by
    by_contra hle
    rw [isElement, kind, node_of_le (Nat.le_of_not_lt hle)] at he
    cases he
  obtain ⟨c, hc⟩ := h.exists_shows id
  unfold ruleContributions at hr ⊢
  rw [slotsOf_explicit_eq hc ht, hc.own_eq] at hr ⊢
  obtain ⟨filled, log, hv⟩ := value_applyRule_eq run.notes hs hn hr
  have hagree := agree_applyRule h hid hc renderer rule
  rw [hv] at hagree
  obtain ⟨⟨⟩, run', hok, hnotes, hshows, ids, hch⟩ := hagree.exists_of_ok
  have hkept : keepFirst (fun k => ((run.tree.own k).renameSlot rule.renames).slotName) []
      (run.tree.children id) = explicitChildren run.tree id rule.renames :=
    keepFirst_congr (fun k _ => Own.slotName_renameSlot ht _) []
  rw [hkept] at hch
  -- the explicit children are as many as the explicit contents, so the rest match the templates
  refine ⟨run', ids, hok, hch, ?_, congrArg Notes.calls hnotes, fun q hq value hval => ?_⟩
  · have hlen := hshows.children.length_eq
    have hkeep : (explicitChildren run.tree id rule.renames).length
        = (Value.explicit rule.renames c.children).length := by
      obtain ⟨-, -, hs', hch', -⟩ := explicit_children h hc rule.renames
      rw [← hkept, ← hch']
      exact hs'.children.length_eq
    have hids : ids.length = (templates (contributions c.own
        (slotsOf (Value.explicit rule.renames c.children)) rule.promotions) css).length := by
      rw [hch, children_node, List.length_append, List.length_append, hkeep] at hlen
      exact Nat.add_right_cancel hlen
    have hall := hshows.children
    rw [hch, children_node] at hall
    have := List.forall₂_take_append _ _ _ hall
    rwa [← hids, List.take_left] at this
  · rw [attr?_eq_own, hshows.own_eq] at hval
    refine attr?_applyFixups (Own.notMem_names_removeAttrs ?_ (List.mem_map_of_mem hq)) _ _ hval
    exact hc.own_eq ▸ h.nodup_names id

end Rule

/-! ## A component in full -/

/-- A letter reads as a text. -/
theorem readsAs_letter : ReadsAs "v" [.node { kind := .text, text := "v" } []] := by
  have hok : (readFragment "v").nodes = .ok [2] := by decide +kernel
  have h₀ : (readFragment "v").tree.children 0 = [2] := by decide +kernel
  have h₂ : (readFragment "v").tree.children 2 = [] := by decide +kernel
  refine ⟨⟨_, hok⟩, shows_node.2 ⟨by decide +kernel, ?_⟩⟩
  exact h₀ ▸ .cons (shows_node.2 ⟨by decide +kernel, h₂ ▸ .nil⟩) .nil

/-- Two attributes and two children, each for one slot: the first attribute
of the rule and the first child stay. -/
theorem applyRule_children_dropdown :
    let rule : Rule := {
      tags := ["dropdown"]
      promotions := [
        { attr := "header", slot := "header", content := .inline },
        { attr := "text", slot := "header", content := .inline }] }
    let fragment := readFragment
      "<dropdown text=\"w\" header=\"v\"><p #a></p><p slot=\"a\"></p></dropdown>"
    let run : Run := { tree := fragment.tree, context := { file := "page.md" } }
    ∃ run' ids, applyRule (.ofFunction fun call => .ok call.source) 2 rule run = .ok () run'
      ∧ run'.tree.children 2 = ids ++ [3]
      ∧ List.Forall₂ run'.tree.Shows ids
        [Value.template "header" [.node { kind := .text, text := "v" } []]]
      ∧ run'.calls = [⟨.inline, "v"⟩] := by
  intro rule fragment run
  have hok : fragment.nodes = .ok [2] := by decide +kernel
  have hkept : explicitChildren run.tree 2 rule.renames = [3] := by decide +kernel
  have hks : ruleContributions run.tree 2 rule = [⟨"header", ⟨.inline, "v"⟩⟩] := by decide +kernel
  have hr : Rendered (.ofFunction fun call => .ok call.source) run.calls.length
      (ruleContributions run.tree 2 rule) [[.node { kind := .text, text := "v" } []]] := by
    rw [hks]
    exact .cons rfl readsAs_letter .nil
  obtain ⟨run', ids, happly, hch, hs, hcalls, -⟩ := applyRule_children (readFragment_of_ok hok).1
    (by decide +kernel) (by decide) (by decide) (by decide) hr
  rw [hkept] at hch
  rw [hks] at hs hcalls
  exact ⟨run', ids, happly, hch, hs, hcalls⟩

/-- **A promoted attribute can be there again**: a rule may set a flag of
its name. -/
theorem exists_promoted_attr_of_flag :
    let rule : Rule := {
      tags := ["x"]
      promotions := [{ attr := "a", slot := "s", content := .inline }]
      fixups := [.flagUnless "zz" "q" "a"] }
    let fragment := readFragment "<x a=\"v\"></x>"
    let run : Run := { tree := fragment.tree, context := { file := "page.md" } }
    run.tree.WellFormed ∧ run.tree.isElement 2 = true
      ∧ (rule.promotions.map (·.attr)).Nodup ∧ (∀ q ∈ rule.promotions, q.slot ≠ "")
      ∧ (∃ css, Rendered (.ofFunction fun call => .ok call.source) 0
        (ruleContributions run.tree 2 rule) css)
      ∧ ∃ run', applyRule (.ofFunction fun call => .ok call.source) 2 rule run = .ok () run'
        ∧ ∃ q ∈ rule.promotions, run'.tree.hasAttr 2 q.attr = true := by
  intro rule fragment run
  have hok : fragment.nodes = .ok [2] := by decide +kernel
  have hks : ruleContributions run.tree 2 rule = [⟨"s", ⟨.inline, "v"⟩⟩] := by decide +kernel
  have hr : Rendered (.ofFunction fun call => .ok call.source) 0
      (ruleContributions run.tree 2 rule) [[.node { kind := .text, text := "v" } []]] := by
    rw [hks]
    exact .cons rfl readsAs_letter .nil
  refine ⟨(readFragment_of_ok hok).1, by decide +kernel, by decide, by decide, ⟨_, hr⟩, ?_⟩
  have hflag : (match applyRule (.ofFunction fun call => .ok call.source) 2 rule run with
      | .ok _ run' => run'.tree.hasAttr 2 "a"
      | .error .. => false) = true := by decide +kernel
  cases happly : applyRule (.ofFunction fun call => .ok call.source) 2 rule run with
  | ok _ run' =>
    rw [happly] at hflag
    exact ⟨run', rfl, _, List.mem_cons_self, hflag⟩
  | error fault run' =>
    rw [happly] at hflag
    cases hflag

end PageSlots.Page
