import Mathlib.Data.List.Nodup
import Mathlib.Logic.Function.Basic

/-!
# Tables that are written once

Entries are written one after the other into a table, each of them only where the table
still holds a vacant value.  The first entry of a key decides, and where the keys of a list
differ its order does not matter.
-/

namespace AxelarCgp.FirstWrite

variable {Key Value : Type*} [DecidableEq Key] (vacant : Value → Prop) [DecidablePred vacant]

def write (table : Key → Value) (entry : Key × Value) : Key → Value :=
  if vacant (table entry.1) then Function.update table entry.1 entry.2 else table

def writeAll (table : Key → Value) (entries : List (Key × Value)) : Key → Value :=
  entries.foldl (write vacant) table

/-- The value of the first entry under a key. -/
def firstValue (entries : List (Key × Value)) (key : Key) : Option Value :=
  (entries.find? fun entry => entry.1 = key).map Prod.snd

variable {vacant} {table : Key → Value} {entry : Key × Value} {entries others : List (Key × Value)}
variable {key : Key}

theorem write_of_ne (h : entry.1 ≠ key) : write vacant table entry key = table key := by
  unfold write
  split
  · exact Function.update_of_ne (Ne.symm h) _ _
  · rfl

theorem write_self : write vacant table entry entry.1 =
    if vacant (table entry.1) then entry.2 else table entry.1 := by
  unfold write
  split
  · exact Function.update_self _ _ _
  · rfl

/-- What a table holds after the entries depends on what it held and on the first entry of
the key. -/
theorem writeAll_apply (hfilled : ∀ entry ∈ entries, ¬ vacant entry.2) (key : Key) :
    writeAll vacant table entries key =
      if vacant (table key) then (firstValue entries key).getD (table key) else table key := by
  induction entries generalizing table with
  | nil => simp [writeAll, firstValue]
  | cons entry entries ih =>
      have hrest : ∀ other ∈ entries, ¬ vacant other.2 :=
        fun other hother => hfilled other (List.mem_cons_of_mem entry hother)
      change writeAll vacant (write vacant table entry) entries key = _
      rw [ih hrest]
      by_cases hkey : entry.1 = key
      · subst hkey
        have hentry := hfilled entry (List.mem_cons_self ..)
        rw [write_self]
        by_cases hvacant : vacant (table entry.1) <;> simp [firstValue, hvacant, hentry]
      · rw [write_of_ne hkey]
        simp [firstValue, hkey]

theorem write_comm {first second : Key × Value} (h : first.1 ≠ second.1) :
    write vacant (write vacant table first) second =
      write vacant (write vacant table second) first := by
  funext key
  by_cases hsecond : second.1 = key
  · subst hsecond
    rw [write_self, write_of_ne h, write_of_ne h, write_self]
  · rw [write_of_ne hsecond]
    by_cases hfirst : first.1 = key
    · subst hfirst
      rw [write_self, write_self, write_of_ne (Ne.symm h)]
    · rw [write_of_ne hfirst, write_of_ne hfirst, write_of_ne hsecond]

/-- Where keys differ the order does not matter. -/
theorem writeAll_perm (hkeys : (entries.map Prod.fst).Nodup) (hperm : entries.Perm others) :
    writeAll vacant table entries = writeAll vacant table others := by
  apply hperm.foldl_eq'
  intro first hfirst second hsecond table
  by_cases hsame : first.1 = second.1
  · rw [List.inj_on_of_nodup_map hkeys hfirst hsecond hsame]
  · exact write_comm hsame

end AxelarCgp.FirstWrite
