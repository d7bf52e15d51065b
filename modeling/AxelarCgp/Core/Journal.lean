import Mathlib.Data.Set.Function
import AxelarCgp.Core.Machine

/-!
# Journals

A machine keeps values in slots, and some of its inputs write into one of them when they
complete.  A slot then holds what the last of these entries wrote, so that what
the machine checks in its storage is a statement about the past: this was put there, and
nothing has touched it since.  When whatever is checked is touched as well, everything
that was put there is good for one use.
-/

namespace AxelarCgp

variable {Key Value Item State Input Output : Type*}

/-! ## Slots -/

namespace Journal

/-- The slots once something was written, or nothing. -/
def write [DecidableEq Key] (slots : Key → Option Value) :
    Option (Key × Option Value) → Key → Option Value
  | none => slots
  | some (key, value) => Function.update slots key value

variable (writes : Input → Option (Key × Option Value))

/-- The entry completed and left this in a slot. -/
def Wrote (key : Key) (value : Option Value) (entry : Entry Input Output) : Prop :=
  (∃ output, entry.result = .ok output) ∧ writes entry.input = some (key, value)

/-- The entry completed and wrote into a slot. -/
def WroteAt (key : Key) (entry : Entry Input Output) : Prop :=
  ∃ value, Wrote writes key value entry

end Journal

/-- The slots that `view` sees start empty, and inputs that complete write into them
what `writes` reads off them. -/
structure Journal [DecidableEq Key] (machine : Machine State Input Output) (start : State)
    (view : State → Key → Option Value) (writes : Input → Option (Key × Option Value)) : Prop where
  starts : view start = fun _ => none
  steps : ∀ history state input next output, machine.Run start history state →
    machine.step state input = .ok (next, output) →
    view next = Journal.write (view state) (writes input)

namespace Journal

variable {writes : Input → Option (Key × Option Value)}

@[simp]
theorem wrote_ok {key : Key} {value : Option Value} {input : Input} {output : Output} :
    Wrote writes key value ⟨input, .ok output⟩ ↔ writes input = some (key, value) := by
  simp [Wrote]

@[simp]
theorem not_wrote_error {key : Key} {value : Option Value} {input : Input} {message : String} :
    ¬ Wrote writes key value ⟨input, (.error message : Outcome Output)⟩ := by
  simp [Wrote]

variable [DecidableEq Key] {machine : Machine State Input Output} {start state : State}
variable {view : State → Key → Option Value} {history : List (Entry Input Output)}

/-- A slot holds what was written into it last. -/
theorem holds_iff_since (h : Journal machine start view writes)
    (hrun : machine.Run start history state) {key : Key} {value : Value} :
    view state key = some value ↔
      Since (Wrote writes key (some value)) (WroteAt writes key) history := by
  induction hrun with
  | start => simp [h.starts, Since]
  | stopped _ _ ih => simp [Since.snoc_iff, WroteAt, ih]
  | @completed history state next input output hrun hok ih =>
    rw [h.steps _ _ _ _ _ hrun hok, Since.snoc_iff, ← ih]
    cases hwrites : writes input with
    | none => simp [write, WroteAt, hwrites]
    | some written =>
      obtain ⟨other, content⟩ := written
      by_cases hkey : other = key
      · subst hkey
        simp [write, WroteAt, hwrites]
      · simp [write, WroteAt, hwrites, hkey, Function.update_of_ne (Ne.symm hkey)]

end Journal

/-! ## Single use -/

/-- Every use of an item goes back to an opening of it, each to one of its own, and
nothing touches the item in between. -/
def Matched (opens uses touches : Item → Entry Input Output → Prop)
    (history : List (Entry Input Output)) : Prop :=
  ∃ openedAt : ℕ → ℕ,
    Set.InjOn openedAt {index | ∃ item entry, history[index]? = some entry ∧ uses item entry} ∧
    ∀ index item entry, history[index]? = some entry → uses item entry →
      openedAt index < index ∧
      (∃ opening, history[openedAt index]? = some opening ∧ opens item opening) ∧
      ∀ between later, openedAt index < between → between < index →
        history[between]? = some later → ¬ touches item later

section Matched

variable {opens uses touches : Item → Entry Input Output → Prop}
variable {history : List (Entry Input Output)}

/-- Where something was opened, as a place in the history. -/
theorem Since.openedAt {before after : List (Entry Input Output)} {entry : Entry Input Output}
    {opens closes : Entry Input Output → Prop} (h : Since opens closes before)
    (hhistory : history = before ++ entry :: after) :
    ∃ opened < before.length, (∃ opening, history[opened]? = some opening ∧ opens opening) ∧
      ∀ between later, opened < between → between < before.length →
        history[between]? = some later → ¬ closes later := by
  obtain ⟨earlier, opening, rest, rfl, hopens, hrest⟩ := h
  have hopening : history[earlier.length]? = some opening := by simp [hhistory]
  refine ⟨earlier.length, by simp, ⟨opening, hopening, hopens⟩, ?_⟩
  intro between later hlower hupper hlater
  apply hrest
  rw [hhistory, List.getElem?_append_left hupper, List.getElem?_append_right hlower.le] at hlater
  obtain ⟨offset, hoffset⟩ := Nat.exists_eq_add_of_lt hlower
  rw [hoffset, show earlier.length + offset + 1 - earlier.length = offset + 1 by omega,
    List.getElem?_cons_succ] at hlater
  exact List.mem_of_getElem? hlater

/-- Uses that are backed by an opening that nothing has touched since, and that touch what
they use, go back to openings of their own. -/
theorem matched_of_since
    (hsince : ∀ before item entry after, history = before ++ entry :: after → uses item entry →
      Since (opens item) (touches item) before)
    (htouches : ∀ item entry, uses item entry → touches item entry)
    (hopens : ∀ item other entry, opens item entry → opens other entry → item = other)
    (huses : ∀ item other entry, uses item entry → uses other entry → item = other) :
    Matched opens uses touches history := by
  have hopened : ∀ index : ℕ, ∃ opened : ℕ, ∀ item entry, history[index]? = some entry →
      uses item entry → opened < index ∧
        (∃ opening, history[opened]? = some opening ∧ opens item opening) ∧
        ∀ between later, opened < between → between < index →
          history[between]? = some later → ¬ touches item later := by
    intro index
    by_cases hused : ∃ item entry, history[index]? = some entry ∧ uses item entry
    · obtain ⟨item, entry, hentry, huse⟩ := hused
      obtain ⟨hindex, hget⟩ := List.getElem?_eq_some_iff.mp hentry
      have hhistory : history = history.take index ++ entry :: history.drop (index + 1) := by
        rw [← hget, List.getElem_cons_drop, List.take_append_drop]
      have hlength : (history.take index).length = index := by simp [hindex.le]
      obtain ⟨opened, hopened⟩ := (hsince _ _ _ _ hhistory huse).openedAt hhistory
      rw [hlength] at hopened
      refine ⟨opened, fun other otherEntry hother hotherUse => ?_⟩
      obtain rfl := Option.some.inj (hentry.symm.trans hother)
      rw [huses other item entry hotherUse huse]
      exact hopened
    · exact ⟨0, fun item entry hentry huse => absurd ⟨item, entry, hentry, huse⟩ hused⟩
  choose openedAt hopenedAt using hopened
  -- Of two uses of one opening the earlier would stand between it and the later.
  have hapart : ∀ first second, first < second → openedAt first = openedAt second →
      (∃ item entry, history[first]? = some entry ∧ uses item entry) →
      ¬ ∃ item entry, history[second]? = some entry ∧ uses item entry := by
    rintro first second hlt hsame ⟨item, entry, hentry, huse⟩ ⟨other, later, hlater, hlaterUse⟩
    obtain ⟨hbefore, ⟨opening, hopening, hopensItem⟩, _⟩ := hopenedAt first item entry hentry huse
    obtain ⟨_, ⟨reopening, hreopening, hopensOther⟩, huntouched⟩ :=
      hopenedAt second other later hlater hlaterUse
    rw [hsame] at hopening hbefore
    obtain rfl := Option.some.inj (hopening.symm.trans hreopening)
    rw [← hopens item other opening hopensItem hopensOther] at huntouched
    exact huntouched first entry hbefore hlt hentry (htouches item entry huse)
  refine ⟨openedAt, ?_, hopenedAt⟩
  intro first hfirst second hsecond hsame
  rcases Nat.lt_trichotomy first second with hlt | heq | hgt
  · exact absurd hsecond (hapart first second hlt hsame hfirst)
  · exact heq
  · exact absurd hfirst (hapart second first hgt hsame.symm hsecond)

end Matched

end AxelarCgp
