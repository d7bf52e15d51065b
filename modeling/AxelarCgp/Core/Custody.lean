import Mathlib.Data.List.Induction
import Mathlib.Data.List.Nodup
import Mathlib.Data.List.Perm.Basic
import AxelarCgp.Core.Machine

/-!
# Custody

Items are sent out, each of them either settles or comes back, and what has come back
may be sent out again.  An item is in flight, returned or settled, and nowhere
else: the three places hold, at any time, exactly what was sent.
-/

namespace AxelarCgp.Custody

variable {Item : Type*}

/-- The items in flight, oldest first, those that came back and those that settled. -/
structure Places (Item : Type*) where
  inFlight : List Item
  returned : List Item
  settled : List Item

/-- What happens to an item; one in flight is known by its position. -/
inductive Move (Item : Type*) where
  | send (item : Item)
  /-- Something that has come back is sent once more. -/
  | resend (item : Item)
  | fail (index : ℕ)
  | settle (index : ℕ)

/-- What a move sends for the first time. -/
def Move.sent : Move Item → List Item
  | send item => [item]
  | _ => []

namespace Places

def start : Places Item := ⟨[], [], []⟩

def items (places : Places Item) : List Item :=
  places.inFlight ++ places.returned ++ places.settled

/-- Only what has come back is sent again. -/
def Allows (places : Places Item) : Move Item → Prop
  | .resend item => item ∈ places.returned
  | _ => True

theorem eraseIdx_append_toList_perm (items : List Item) (index : ℕ) :
    (items.eraseIdx index ++ items[index]?.toList).Perm items := by
  cases hitem : items[index]? with
  | none =>
    rw [List.eraseIdx_of_length_le (List.getElem?_eq_none_iff.mp hitem)]
    simp
  | some item =>
    obtain ⟨hindex, rfl⟩ := List.getElem?_eq_some_iff.mp hitem
    exact List.perm_append_comm.trans (List.getElem_cons_eraseIdx_perm hindex)

variable [DecidableEq Item]

def move (places : Places Item) : Move Item → Places Item
  | .send item => { places with inFlight := places.inFlight ++ [item] }
  | .resend item =>
      { places with
        inFlight := places.inFlight ++ [item]
        returned := places.returned.erase item }
  | .fail index =>
      { places with
        inFlight := places.inFlight.eraseIdx index
        returned := places.returned ++ places.inFlight[index]?.toList }
  | .settle index =>
      { places with
        inFlight := places.inFlight.eraseIdx index
        settled := places.settled ++ places.inFlight[index]?.toList }

/-- A move loses no item and makes none, but for those that it sends. -/
theorem items_move_perm {places : Places Item} {step : Move Item} (h : places.Allows step) :
    (places.move step).items.Perm (places.items ++ step.sent) := by
  rw [List.perm_iff_count]
  intro item
  cases step with
  | send sent =>
    simp only [move, items, Move.sent, List.count_append]
    omega
  | resend again =>
    have hreturned := (List.perm_cons_erase h).count_eq item
    simp only [List.count_cons] at hreturned
    simp only [move, items, Move.sent, List.count_append, List.count_cons, List.count_nil]
    omega
  | fail index =>
    have hflight := (eraseIdx_append_toList_perm places.inFlight index).count_eq item
    rw [List.count_append] at hflight
    simp only [move, items, Move.sent, List.count_append, List.count_nil]
    omega
  | settle index =>
    have hflight := (eraseIdx_append_toList_perm places.inFlight index).count_eq item
    rw [List.count_append] at hflight
    simp only [move, items, Move.sent, List.count_append, List.count_nil]
    omega

end Places

/-! ## A table of items

A table that holds the value of every item under its key, and nothing else. -/

section

variable {Key Value : Type*} {key : Item → Key} {value : Item → Value}
variable {table : Key → Option Value} {items : List Item} {item : Item}

def Records (key : Item → Key) (value : Item → Value) (table : Key → Option Value)
    (items : List Item) : Prop :=
  ∀ place content, table place = some content ↔
    ∃ item ∈ items, key item = place ∧ value item = content

variable [DecidableEq Key]

/-- One more item, under a key of its own. -/
theorem Records.snoc (h : Records key value table items) (hfresh : key item ∉ items.map key) :
    Records key value (Function.update table (key item) (some (value item)))
      (items ++ [item]) := by
  intro place content
  by_cases hplace : place = key item
  · subst hplace
    rw [Function.update_self, Option.some_inj]
    constructor
    · intro hcontent
      exact ⟨item, by simp, rfl, hcontent⟩
    · rintro ⟨other, hother, hkey, hvalue⟩
      rcases List.mem_append.mp hother with hother | hother
      · exact absurd (hkey ▸ List.mem_map_of_mem hother) hfresh
      · rw [← hvalue, List.mem_singleton.mp hother]
  · rw [Function.update_of_ne hplace, h place content]
    constructor
    · rintro ⟨other, hother, hrest⟩
      exact ⟨other, List.mem_append_left _ hother, hrest⟩
    · rintro ⟨other, hother, hkey, hvalue⟩
      rcases List.mem_append.mp hother with hother | hother
      · exact ⟨other, hother, hkey, hvalue⟩
      · rw [List.mem_singleton.mp hother] at hkey
        exact absurd hkey.symm hplace

/-- One item less. -/
theorem Records.erase [DecidableEq Item] (h : Records key value table items)
    (hdistinct : (items.map key).Nodup) (hitem : item ∈ items) :
    Records key value (Function.update table (key item) none) (items.erase item) := by
  have hkeys : ∀ other ∈ items, key other = key item → other = item := by
    intro other hother hkey
    exact List.inj_on_of_nodup_map hdistinct hother hitem hkey
  have hitems : items.Nodup := List.Nodup.of_map key hdistinct
  intro place content
  by_cases hplace : place = key item
  · subst hplace
    rw [Function.update_self]
    constructor
    · intro hnone
      simp at hnone
    · rintro ⟨other, hother, hkey, _⟩
      have hmem := (hitems.mem_erase_iff.mp hother)
      exact absurd (hkeys other hmem.2 hkey) hmem.1
  · rw [Function.update_of_ne hplace, h place content]
    constructor
    · rintro ⟨other, hother, hkey, hvalue⟩
      have hne : other ≠ item := by
        intro hsame
        exact hplace (hkey ▸ hsame ▸ rfl)
      exact ⟨other, hitems.mem_erase_iff.mpr ⟨hne, hother⟩, hkey, hvalue⟩
    · rintro ⟨other, hother, hrest⟩
      exact ⟨other, (hitems.mem_erase_iff.mp hother).2, hrest⟩

end

/-! ## Along a history -/

section

variable {Input Output : Type*}
variable {moves : Entry Input Output → Option (Move Item)}
variable {history : List (Entry Input Output)} {entry : Entry Input Output}

/-- What was sent in a history. -/
def sent (moves : Entry Input Output → Option (Move Item))
    (history : List (Entry Input Output)) : List Item :=
  (history.filterMap moves).flatMap Move.sent

theorem sent_snoc_none (h : moves entry = none) :
    sent moves (history ++ [entry]) = sent moves history := by
  simp [sent, List.filterMap_append, h]

theorem sent_snoc_some {step : Move Item} (h : moves entry = some step) :
    sent moves (history ++ [entry]) = sent moves history ++ step.sent := by
  simp [sent, List.filterMap_append, h]

variable [DecidableEq Item]

/-- Where the items are after a history whose entries are moves, or none. -/
def places (moves : Entry Input Output → Option (Move Item))
    (history : List (Entry Input Output)) : Places Item :=
  (history.filterMap moves).foldl Places.move .start

theorem places_snoc_none (h : moves entry = none) :
    places moves (history ++ [entry]) = places moves history := by
  simp [places, List.filterMap_append, h]

theorem places_snoc_some {step : Move Item} (h : moves entry = some step) :
    places moves (history ++ [entry]) = (places moves history).move step := by
  simp [places, List.filterMap_append, h]

/-- Where only what has come back is sent again, the three places hold what was sent. -/
theorem items_perm_sent
    (hallows : ∀ before entry after step, history = before ++ entry :: after →
      moves entry = some step → (places moves before).Allows step) :
    (places moves history).items.Perm (sent moves history) := by
  induction history using List.reverseRecOn with
  | nil => exact List.Perm.refl _
  | append_singleton history entry ih =>
    have hbefore : (places moves history).items.Perm (sent moves history) := by
      apply ih
      intro before other after step hhistory hmoves
      exact hallows before other (after ++ [entry]) step (by simp [hhistory]) hmoves
    cases hmoves : moves entry with
    | none =>
      rw [places_snoc_none hmoves, sent_snoc_none hmoves]
      exact hbefore
    | some step =>
      rw [places_snoc_some hmoves, sent_snoc_some hmoves]
      have hstep := hallows history entry [] step rfl hmoves
      exact (Places.items_move_perm hstep).trans (hbefore.append_right _)

end

end AxelarCgp.Custody
