import Mathlib.Data.List.Infix
import Mathlib.Data.List.Nodup
import Mathlib.Tactic.Common
/-!
# Rosters

Keys come one after the other, and the first few different ones are
registered, each at the next place. A roster only grows at its end, and
who is not in it came when it was full. What a bearer of a key said last
is the latest of what came with the key.
-/

namespace ObcSdk

variable {κ β : Type*} [DecidableEq κ]

/-- A key is registered behind the others, once, as long as there is
room. -/
def enroll (cap : ℕ) (keys : List κ) (k : κ) : List κ :=
  if k ∈ keys ∨ cap ≤ keys.length then keys else keys ++ [k]

/-- The keys registered, in order. -/
def roster (cap : ℕ) (keys : List κ) : List κ := keys.foldl (enroll cap) []

/-- The latest of what came with a key. -/
def latest (key : β → κ) (k : κ) (l : List β) : Option β := l.reverse.find? fun b => key b = k

variable {cap : ℕ} {keys more : List κ} {k : κ} {key : β → κ} {b : β} {l : List β}

@[simp] theorem roster_nil : roster cap ([] : List κ) = [] := rfl

theorem roster_concat : roster cap (keys ++ [k]) = enroll cap (roster cap keys) k := by
  rw [roster, List.foldl_append]
  rfl

/-- **A roster grows at its end**, so that a key registered stays where it
is. -/
theorem roster_append : roster cap keys <+: roster cap (keys ++ more) := by
  induction more using List.reverseRecOn with
  | nil => rw [List.append_nil]
  | append_singleton more k ih =>
    rw [← List.append_assoc, roster_concat, enroll]
    split
    · exact ih
    · exact ih.trans (List.prefix_append _ _)

theorem nodup_roster : (roster cap keys).Nodup := by
  induction keys using List.reverseRecOn with
  | nil => exact List.nodup_nil
  | append_singleton keys k ih =>
    rw [roster_concat, enroll]
    split
    · exact ih
    · rename_i hno
      rw [not_or] at hno
      rw [← List.concat_eq_append]
      exact List.Nodup.concat hno.1 ih

theorem length_roster_le : (roster cap keys).length ≤ cap := by
  induction keys using List.reverseRecOn with
  | nil => exact Nat.zero_le _
  | append_singleton keys k ih =>
    rw [roster_concat, enroll]
    split
    · exact ih
    · rename_i hno
      rw [not_or] at hno
      rw [List.length_append, List.length_singleton]
      omega

/-- **A key is refused** only where the roster is full of others. -/
theorem full_of_not_mem (h : k ∉ roster cap (keys ++ [k])) :
    (roster cap keys).length = cap ∧ k ∉ roster cap keys := by
  rw [roster_concat, enroll] at h
  split at h
  · rename_i hor
    exact ⟨le_antisymm length_roster_le (hor.resolve_left h), h⟩
  · exact absurd (List.mem_append_right _ (List.mem_singleton_self k)) h

/-! ## The latest -/

@[simp] theorem latest_nil : latest key k [] = none := rfl

theorem latest_concat :
    latest key k (l ++ [b]) = if key b = k then some b else latest key k l := by
  rw [latest, List.reverse_append, List.reverse_singleton, List.singleton_append, List.find?_cons]
  by_cases hk : key b = k
  · simp [hk]
  · simp [hk, latest]

theorem latest_key (h : latest key k l = some b) : key b = k := by
  simpa using List.find?_some h

theorem mem_of_latest (h : latest key k l = some b) : b ∈ l :=
  List.mem_reverse.1 (List.mem_of_find?_eq_some h)

/-- **The latest** came with the key, and nothing came with it since. -/
theorem latest_eq_some_iff : latest key k l = some b ↔
    key b = k ∧ ∃ pre post, l = pre ++ b :: post ∧ ∀ c ∈ post, key c ≠ k := by
  constructor
  · intro h
    refine ⟨latest_key h, ?_⟩
    obtain ⟨-, before, after, hl, hbefore⟩ := List.find?_eq_some_iff_append.1 h
    refine ⟨after.reverse, before.reverse, ?_, ?_⟩
    · rw [← List.reverse_reverse l, hl, List.reverse_append, List.reverse_cons, List.append_assoc,
        List.singleton_append]
    · intro c hc
      simpa using hbefore c (List.mem_reverse.1 hc)
  · rintro ⟨hkey, pre, post, rfl, hpost⟩
    refine List.find?_eq_some_iff_append.2 ⟨by simpa using hkey, post.reverse, pre.reverse, ?_, ?_⟩
    · rw [List.reverse_append, List.reverse_cons, List.append_assoc, List.singleton_append]
    · intro c hc
      simpa using hpost c (List.mem_reverse.1 hc)

end ObcSdk
