import PageSlots.Proofs.Content.Edit
import PageSlots.Proofs.Page.Value

/-!
# Steps that agree

A step of the first pass on a tree and the step of the same name on what a
node shows are run side by side. They `Agree`: both return, or both fail
with the same fault; the renderer has been called and things have been
told alike; and the tree is well formed in either case and unchanged
outside some roots.

Agreement goes along with steps one after the other (`Agree.bind`). The
small steps of a run are equations, and the two that may fail agree
(`agree_render`, `agree_readInto`).
-/

namespace PageSlots.Page

open PageSlots.Component PageSlots.Markup PageSlots.Markup.Content PageSlots.Markup.Tree
open PageSlots.Slot

/-! ## Steps one after the other -/

section Bind

variable {ε σ α β : Type} {x : EStateM ε σ α} {s s' : σ}

theorem bind_of_ok {a : α} (h : x s = .ok a s') (f : α → EStateM ε σ β) :
    (x >>= f) s = f a s' := by
  show EStateM.bind x f s = _
  rw [EStateM.bind, h]

theorem bind_of_error {e : ε} (h : x s = .error e s') (f : α → EStateM ε σ β) :
    (x >>= f) s = .error e s' := by
  show EStateM.bind x f s = _
  rw [EStateM.bind, h]

/-- If two steps one after the other return, so does each. -/
theorem exists_of_bind_ok {f : α → EStateM ε σ β} {b : β} (h : (x >>= f) s = .ok b s') :
    ∃ a mid, x s = .ok a mid ∧ f a mid = .ok b s' := by
  cases hx : x s with
  | ok a mid => exact ⟨a, mid, rfl, (bind_of_ok hx f).symm.trans h⟩
  | error e mid => rw [bind_of_error hx] at h; cases h

/-- Whether a step returns. -/
def returns : EStateM.Result ε σ α → Bool
  | .ok .. => true
  | .error .. => false

theorem exists_of_returns {r : EStateM.Result ε σ α} (h : returns r = true) :
    ∃ a s, r = .ok a s := by
  cases r with
  | ok a s => exact ⟨a, s, rfl⟩
  | error e s => cases h

theorem get_eq (s : σ) : (get : EStateM ε σ σ) s = .ok s s := rfl

end Bind

/-! ## Agreement -/

/-- The run that a step leaves, whether it returns or fails. -/
def runAfter {α : Type} : EStateM.Result PageFault Run α → Run
  | .ok _ run => run
  | .error _ run => run

@[simp] theorem runAfter_ok {α : Type} (a : α) (run : Run) : runAfter (.ok a run) = run := rfl

@[simp] theorem runAfter_error {α : Type} (fault : PageFault) (run : Run) :
    runAfter (.error fault run : EStateM.Result PageFault Run α) = run := rfl

/-- The tree that a step leaves, whether it returns or fails. -/
def treeAfter {α : Type} : EStateM.Result PageFault Run α → Tree
  | .ok _ run => run.tree
  | .error _ run => run.tree

/-- **Two steps agree**, one on a tree and one on values: they end alike,
and the tree has changed below some roots only. `post` says how what they
return is related. -/
inductive Agree {α β : Type} (roots : List NodeId) (t : Tree) (post : α → Tree → β → Prop) :
    EStateM.Result PageFault Run α → EStateM.Result PageFault Notes β → Prop where
  /-- Both return. -/
  | ok {a : α} {b : β} (run : Run) : run.tree.WellFormed → Confined roots t run.tree →
      post a run.tree b → Agree roots t post (.ok a run) (.ok b run.notes)
  /-- Both fail, with the same fault. -/
  | error {fault : PageFault} (run : Run) : run.tree.WellFormed → Confined roots t run.tree →
      Agree roots t post (.error fault run) (.error fault run.notes)

namespace Agree

variable {α β γ δ : Type} {roots roots' : List NodeId} {t t' : Tree}
variable {post : α → Tree → β → Prop} {post' : γ → Tree → δ → Prop}

/-- **Agreeing steps one after the other agree.** -/
theorem bind {x : PageM α} {y : ValueM β} {f : α → PageM γ} {g : β → ValueM δ} {run : Run}
    {notes : Notes} (h : Agree roots t post (x run) (y notes))
    (hf : ∀ a b (run : Run), run.tree.WellFormed → Confined roots t run.tree → post a run.tree b →
      Agree roots t post' (f a run) (g b run.notes)) :
    Agree roots t post' ((x >>= f) run) ((y >>= g) notes) := by
  rcases hx : x run with ⟨a, run'⟩ | ⟨fault, run'⟩ <;> rw [hx] at h
  · rcases hy : y notes with ⟨b, notes'⟩ | ⟨fault', notes'⟩ <;> rw [hy] at h
    · cases h with
      | ok _ hwf hc hp =>
        rw [bind_of_ok hx, bind_of_ok hy]
        exact hf a b run' hwf hc hp
    · cases h
  · rcases hy : y notes with ⟨b, notes'⟩ | ⟨fault', notes'⟩ <;> rw [hy] at h
    · cases h
    · cases h with
      | error _ hwf hc =>
        rw [bind_of_error hx, bind_of_error hy]
        exact .error _ hwf hc

/-- What was done before may be added, and what is known may be
weakened. -/
theorem mono {r : EStateM.Result PageFault Run α} {s : EStateM.Result PageFault Notes β}
    {post' : α → Tree → β → Prop} (h : Agree roots t post r s)
    (hc : ∀ t'' : Tree, t''.WellFormed → Confined roots t t'' → Confined roots' t' t'')
    (hp : ∀ a t'' b, t''.WellFormed → Confined roots t t'' → post a t'' b → post' a t'' b) :
    Agree roots' t' post' r s := by
  cases h with
  | ok _ hwf hcf hpost => exact .ok _ hwf (hc _ hwf hcf) (hp _ _ _ hwf hcf hpost)
  | error _ hwf hcf => exact .error _ hwf (hc _ hwf hcf)

/-- The same, if only the start is earlier. -/
theorem after {r : EStateM.Result PageFault Run α} {s : EStateM.Result PageFault Notes β}
    (h : Agree roots t post r s) (hc : Confined roots t' t) (hwf' : t'.WellFormed)
    (hwf : t.WellFormed) : Agree roots t' post r s :=
  h.mono (fun _ _ h'' => hc.trans h'' hwf' hwf) fun _ _ _ _ _ hp => hp

/-- What is returned may be put differently on the side of values. -/
theorem map {x : PageM α} {y : ValueM β} {run : Run} {notes : Notes} {g : β → δ}
    {post' : α → Tree → δ → Prop} (h : Agree roots t post (x run) (y notes))
    (hp : ∀ a t'' b, t''.WellFormed → Confined roots t t'' → post a t'' b → post' a t'' (g b)) :
    Agree roots t post' (x run) ((y >>= fun b => pure (g b)) notes) := by
  rw [← bind_pure x]
  exact h.bind fun a b run hwf hc hpost => .ok run hwf hc (hp a run.tree b hwf hc hpost)

/-- If the step on values returns, so does the one on the tree. -/
theorem exists_of_ok {r : EStateM.Result PageFault Run α} {b : β} {notes : Notes}
    (h : Agree roots t post r (.ok b notes)) :
    ∃ a run, r = .ok a run ∧ run.notes = notes ∧ post a run.tree b := by
  cases h with
  | ok _ _ _ hp => exact ⟨_, _, rfl, rfl, hp⟩

/-- If the step on the tree returns, so does the one on values. -/
theorem exists_value_of_ok {s : EStateM.Result PageFault Notes β} {a : α} {run : Run}
    (h : Agree roots t post (.ok a run) s) : ∃ b, s = .ok b run.notes ∧ post a run.tree b := by
  cases h with
  | ok _ _ _ hp => exact ⟨_, rfl, hp⟩

/-- **The tree is well formed and changed below the roots only**, however
the steps end. -/
theorem confined {r : EStateM.Result PageFault Run α} {s : EStateM.Result PageFault Notes β}
    (h : Agree roots t post r s) :
    (runAfter r).tree.WellFormed ∧ Confined roots t (runAfter r).tree := by
  cases h with
  | ok _ hwf hc _ => exact ⟨hwf, hc⟩
  | error _ hwf hc => exact ⟨hwf, hc⟩

/-- The tree is well formed however the steps end. -/
theorem wellFormed {r : EStateM.Result PageFault Run α} {s : EStateM.Result PageFault Notes β}
    (h : Agree roots t post r s) : (treeAfter r).WellFormed := by
  cases h with
  | ok _ hwf _ _ => exact hwf
  | error _ hwf _ => exact hwf

end Agree

/-! ## The small steps -/

section Steps

variable {run : Run} {id : NodeId} {c : Content} {cs : List Content} {p : Processor}

theorem takeAttr_eq (id : NodeId) (name : String) (run : Run) :
    takeAttr id name run = .ok (run.tree.removeAttr id name).1
      { run with tree := (run.tree.removeAttr id name).2 } := rfl

theorem getTree_eq (run : Run) : getTree run = .ok run.tree run := rfl

theorem modifyTree_eq (f : Tree → Tree) (run : Run) :
    modifyTree f run = .ok () { run with tree := f run.tree } := rfl

theorem editTree_eq (f : Tree → Log × Tree) (run : Run) :
    editTree f run = .ok () { run with tree := (f run.tree).2, log := run.log ++ (f run.tree).1 } :=
  rfl

theorem tell_eq (entry : LogEntry) (run : Run) :
    tell entry run = .ok () { run with log := run.log ++ [entry] } := rfl

theorem value_tell_eq (log : Log) (notes : Notes) :
    Value.tell log notes = .ok () { notes with log := notes.log ++ log } := rfl

theorem modifyContext_eq (f : Context → Context) (run : Run) :
    modifyContext f run = .ok () { run with context := f run.context } := rfl

theorem value_modifyContext_eq (f : Context → Context) (notes : Notes) :
    Value.modifyContext f notes = .ok () { notes with context := f notes.context } := rfl

theorem createTemplate_eq (slot : String) (run : Run) :
    createTemplate slot run = .ok run.tree.size
      { run with tree :=
        (run.tree.createElement wrapperTag).2.setAttr run.tree.size (marker slot) "" } := rfl

/-- Rendering leaves the tree. -/
theorem agree_render (run : Run) (h : run.tree.WellFormed) (roots : List NodeId)
    (renderer : Renderer) (mode : RenderMode) (source : String) :
    Agree roots run.tree (fun a t b => a = b ∧ t = run.tree)
      (render renderer mode source run) (Value.render renderer mode source run.notes) := by
  unfold render Value.render
  dsimp only [Run.notes]
  cases renderer.answer run.calls.length ⟨mode, source⟩ with
  | ok markup =>
    exact Agree.ok { run with calls := run.calls ++ [⟨mode, source⟩] } h
      (Confined.refl roots run.tree) ⟨rfl, rfl⟩
  | error e =>
    exact Agree.error { run with calls := run.calls ++ [⟨mode, source⟩] } h
      (Confined.refl roots run.tree)

/-- **Reading markup into a node** appends what the markup is. -/
theorem agree_readInto (run : Run) (h : run.tree.WellFormed) (hid : id < run.tree.size)
    (markup : String) :
    Agree [id] run.tree (fun _ t cs => ∃ ids, Receives id ids cs run.tree t)
      (readInto id markup run) (Value.read markup run.notes) := by
  have hlog := h.log_readInto id markup
  unfold readInto Value.read
  dsimp only [Run.notes]
  rw [← hlog]
  cases hp : (Content.parse markup).1 with
  | ok cs =>
    obtain ⟨ids, hn, hr⟩ := h.readInto_of_ok hid hp
    rw [hn]
    exact Agree.ok { run with
      tree := (run.tree.readInto id markup).tree
      log := run.log ++ (run.tree.readInto id markup).log } hr.wellFormed hr.confined ⟨ids, hr⟩
  | error fault =>
    obtain ⟨hn, hwf, hc⟩ := h.readInto_of_error id hp
    rw [hn]
    have hc' : Confined [id] run.tree (run.tree.readInto id markup).tree :=
      hc.widen (List.nil_subset [id]) fun s hs _ => ⟨List.mem_singleton.1 hs ▸ hid, nofun⟩
    exact Agree.error { run with
      tree := (run.tree.readInto id markup).tree
      log := run.log ++ (run.tree.readInto id markup).log } hwf hc'

end Steps

end PageSlots.Page
