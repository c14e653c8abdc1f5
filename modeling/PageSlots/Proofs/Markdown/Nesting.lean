import PageSlots.Markdown.Emphasis
import PageSlots.Proofs.Markdown.Spoken

/-!
# Nested events as trees

Events are nested if each end closes what was started last and is still
open, and nothing is open at the end (`isNested`). They are then the events
of a forest: an event that neither starts nor ends anything is a tree of
its own, and a start with its end is one over what stands between them
(`Stretch`). `isNested_iff` says that these are two ways to tell the same
sequences, so what is proved by induction on stretches holds of nested
events.
-/

namespace PageSlots.Markdown

/-- Whether an event neither starts nor ends anything. -/
def Event.isSingle : Event → Bool
  | .start _ | .stop _ => false
  | _ => true

/-- **A stretch of a document**: a single event, or what a start and its end
enclose. -/
inductive Stretch where
  /-- An event that neither starts nor ends anything. -/
  | single (event : Event) (isSingle : event.isSingle = true)
  /-- A start, its end, and what stands between them. -/
  | around (tag : Tag) (inside : List Stretch)

namespace Stretch

/-- **Induction on stretches side by side**: the first of them is single, or
a tag with stretches inside it, of which the statement holds as well as of
the stretches behind. -/
@[elab_as_elim]
theorem induct {motive : List Stretch → Prop} (nil : motive [])
    (single : ∀ e h rest, motive rest → motive (.single e h :: rest))
    (around : ∀ tag inside rest, motive inside → motive rest →
      motive (.around tag inside :: rest)) : ∀ stretches, motive stretches
  | [] => nil
  | .single e h :: rest => single e h rest (induct nil single around rest)
  | .around tag inside :: rest =>
    around tag inside rest (induct nil single around inside) (induct nil single around rest)

mutual

/-- **The events of a stretch.** -/
def events : Stretch → List Event
  | single event _ => [event]
  | around tag inside => surround tag (eventsOf inside)

/-- The events of several stretches, one after the other. -/
def eventsOf : List Stretch → List Event
  | [] => []
  | s :: rest => events s ++ eventsOf rest

end

@[simp] theorem events_single (e : Event) (h : e.isSingle = true) : (single e h).events = [e] := rfl

@[simp] theorem events_around (tag : Tag) (inside : List Stretch) :
    (around tag inside).events = surround tag (eventsOf inside) := rfl

@[simp] theorem eventsOf_nil : eventsOf [] = [] := rfl

@[simp] theorem eventsOf_cons (s : Stretch) (rest : List Stretch) :
    eventsOf (s :: rest) = s.events ++ eventsOf rest := rfl

section Events

variable {P : Event → Prop} {tag : Tag} {inside : List Event}

/-- What holds of the events of stretches holds of those of the first one
and of those behind it. -/
theorem forall_mem_eventsOf_cons {s : Stretch} {rest : List Stretch} :
    (∀ e ∈ eventsOf (s :: rest), P e) ↔ (∀ e ∈ s.events, P e) ∧ ∀ e ∈ eventsOf rest, P e := by
  rw [eventsOf_cons]
  exact List.forall_mem_append

/-- What holds of the events of a tag holds of those inside it. -/
theorem forall_mem_surround :
    (∀ e ∈ surround tag inside, P e)
      ↔ P (.start tag) ∧ (∀ e ∈ inside, P e) ∧ P (.stop tag.toEnd) := by
  rw [surround, List.cons_append, List.forall_mem_cons, List.forall_mem_append,
    List.forall_mem_singleton]

end Events

end Stretch

open Stretch

/-! ## Nested events -/

variable {e : Event} {events rest : List Event} {opened : List Tag}

/-- Whether an event may come while some tags are open: an end closes the
innermost of them. -/
def Event.closesInnermost (opened : List Tag) : Event → Bool
  | .stop tag => opened.head?.map Tag.toEnd == some tag
  | _ => true

/-- **Whether events are nested** inside some open tags: each end closes the
innermost one, and nothing is open at the end. -/
def isNested (opened : List Tag) : List Event → Bool
  | [] => opened.isEmpty
  | e :: events => e.closesInnermost opened && isNested (openedAfter opened e) events

theorem isNested_cons : isNested opened (e :: events) = true ↔
    e.closesInnermost opened = true ∧ isNested (openedAfter opened e) events = true :=
  Bool.and_eq_true_iff

/-- An end that may come closes the innermost tag. -/
theorem exists_of_closesInnermost {tag : EndTag}
    (h : (Event.stop tag).closesInnermost opened = true) :
    ∃ first outer, opened = first :: outer ∧ first.toEnd = tag := by
  unfold Event.closesInnermost at h
  cases opened with
  | nil => cases h
  | cons first outer => exact ⟨first, outer, rfl, by simpa using h⟩

/-- A single event opens and closes nothing. -/
theorem isNested_single (h : e.isSingle = true) :
    isNested opened (e :: events) = isNested opened events := by
  cases e <;> first | rfl | cases h

/-- **The events of stretches leave open what was open.** -/
theorem isNested_eventsOf_append (stretches : List Stretch) (opened : List Tag)
    (rest : List Event) : isNested opened (eventsOf stretches ++ rest) = isNested opened rest := by
  induction stretches using Stretch.induct generalizing opened rest with
  | nil => rfl
  | single e h behind ih =>
    rw [eventsOf_cons, events_single, List.append_assoc, List.singleton_append, isNested_single h,
      ih]
  | around tag inside behind ihinside ih =>
    have hstart : isNested opened (eventsOf (.around tag inside :: behind) ++ rest)
        = isNested (tag :: opened)
          (eventsOf inside ++ .stop tag.toEnd :: (eventsOf behind ++ rest)) := by
      rw [eventsOf_cons, events_around, surround, List.append_assoc, List.append_assoc]
      rfl
    rw [hstart, ihinside, isNested]
    show (some tag.toEnd == some tag.toEnd && isNested opened (eventsOf behind ++ rest)) = _
    rw [beq_self_eq_true, Bool.true_and, ih]

/-- What is still to come while some tags are open: stretches, and for each
open tag its end and the stretches behind it. -/
theorem exists_stretches (h : isNested opened events = true) :
    ∃ (stretches : List Stretch) (behind : List (Tag × List Stretch)),
      behind.map Prod.fst = opened ∧ events = eventsOf stretches
        ++ behind.flatMap fun b => .stop b.1.toEnd :: eventsOf b.2 := by
  induction events generalizing opened with
  | nil =>
    obtain rfl : opened = [] := by simpa [isNested] using h
    exact ⟨[], [], rfl, rfl⟩
  | cons e events ih =>
    obtain ⟨hcloses, hrest⟩ := isNested_cons.1 h
    obtain ⟨stretches, behind, hbehind, hevents⟩ := ih hrest
    cases e with
    | start tag =>
      -- the first tag behind is the new one, so its end is the end of a stretch
      obtain ⟨⟨tag', after⟩, behind, rfl⟩ : ∃ b bs, behind = b :: bs :=
        List.exists_cons_of_ne_nil (by rintro rfl; cases hbehind)
      obtain ⟨rfl, hopened⟩ := List.cons.inj hbehind
      refine ⟨around tag' stretches :: after, behind, hopened, ?_⟩
      rw [hevents, eventsOf_cons, events_around, surround]
      simp
    | stop tag =>
      obtain ⟨first, outer, rfl, rfl⟩ := exists_of_closesInnermost hcloses
      refine ⟨[], (first, stretches) :: behind, congrArg (first :: ·) hbehind, ?_⟩
      rw [hevents]
      rfl
    | text _ | code _ | html _ | inlineHtml _ | inlineMath _ | displayMath _
    | footnoteReference _ | softBreak | hardBreak | rule | taskMarker _ =>
      exact ⟨single _ (by rfl) :: stretches, behind, hbehind, congrArg (_ :: ·) hevents⟩

/-- **Nested events are the events of stretches.** -/
theorem isNested_iff : isNested [] events = true ↔ ∃ stretches, events = eventsOf stretches := by
  constructor
  · intro h
    obtain ⟨stretches, behind, hbehind, hevents⟩ := exists_stretches h
    obtain rfl := List.map_eq_nil_iff.1 hbehind
    exact ⟨stretches, by rw [hevents, List.flatMap_nil, List.append_nil]⟩
  · rintro ⟨stretches, rfl⟩
    have happend := isNested_eventsOf_append stretches [] []
    rwa [List.append_nil] at happend

end PageSlots.Markdown
