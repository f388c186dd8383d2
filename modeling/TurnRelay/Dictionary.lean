namespace TurnRelay

structure Dictionary (κ α : Type) where
  entries : List (κ × α)
  nodup : (entries.map (·.1)).Nodup

namespace Dictionary

variable {κ α β : Type}

def empty : Dictionary κ α := ⟨[], by simp⟩

instance : EmptyCollection (Dictionary κ α) := ⟨empty⟩

instance : Inhabited (Dictionary κ α) := ⟨empty⟩

theorem ext {d e : Dictionary κ α} (h : d.entries = e.entries) : d = e := by
  cases d; cases e; cases h; rfl

instance [DecidableEq κ] [DecidableEq α] : DecidableEq (Dictionary κ α) := fun d e =>
  if h : d.entries = e.entries then isTrue (ext h) else isFalse fun he => h (he ▸ rfl)

def keys (d : Dictionary κ α) : List κ := d.entries.map (·.1)

def values (d : Dictionary κ α) : List α := d.entries.map (·.2)

def size (d : Dictionary κ α) : Nat := d.entries.length

def isEmpty (d : Dictionary κ α) : Bool := d.entries.isEmpty

def filter (keep : κ → α → Bool) (d : Dictionary κ α) : Dictionary κ α :=
  ⟨d.entries.filter fun e => keep e.1 e.2, d.nodup.sublist (List.filter_sublist.map _)⟩

def map (f : α → β) (d : Dictionary κ α) : Dictionary κ β :=
  ⟨d.entries.map fun e => (e.1, f e.2), by simpa [Function.comp_def] using d.nodup⟩

variable [DecidableEq κ]

def get? (d : Dictionary κ α) (key : κ) : Option α := d.entries.lookup key

def contains (d : Dictionary κ α) (key : κ) : Bool := (d.get? key).isSome

def erase (d : Dictionary κ α) (key : κ) : Dictionary κ α := d.filter fun k _ => k ≠ key

def insert (d : Dictionary κ α) (key : κ) (value : α) : Dictionary κ α :=
  if h : key ∈ d.keys then
    ⟨d.entries.map fun e => if e.1 = key then (e.1, value) else e, by
      have hkeys : (d.entries.map fun e => if e.1 = key then (e.1, value) else e).map (·.1) =
          d.entries.map (·.1) := by
        simp only [List.map_map]
        apply List.map_congr_left
        intro e _
        simp only [Function.comp]
        split <;> rfl
      rw [hkeys]
      exact d.nodup⟩
  else
    ⟨d.entries ++ [(key, value)], by
      rw [List.map_append, List.nodup_append]
      refine ⟨d.nodup, by simp, ?_⟩
      rintro k hk k' hk' rfl
      simp only [List.map_cons, List.map_nil, List.mem_singleton] at hk'
      exact h (hk' ▸ hk)⟩

theorem get?_eq_some_iff {d : Dictionary κ α} {key : κ} {value : α} :
    d.get? key = some value ↔ (key, value) ∈ d.entries := by
  obtain ⟨entries, nodup⟩ := d
  simp only [get?]
  induction entries with
  | nil => simp
  | cons e rest ih =>
    obtain ⟨hnot, hrest⟩ := List.nodup_cons.1 nodup
    obtain ⟨k, v⟩ := e
    by_cases h : key = k
    · subst h
      simp only [List.lookup_cons_self, Option.some.injEq, List.mem_cons, Prod.mk.injEq, true_and]
      constructor
      · exact fun hv => .inl hv.symm
      · rintro (hv | hv)
        · exact hv.symm
        · exact absurd (List.mem_map.2 ⟨_, hv, rfl⟩) hnot
    · have hb : (key == k) = false := by simpa using h
      simp only [List.lookup_cons, hb, List.mem_cons, Prod.mk.injEq, h, false_and, false_or]
      exact ih hrest

@[simp] theorem get?_empty (key : κ) : (∅ : Dictionary κ α).get? key = none := rfl

theorem get?_filter (keep : κ → α → Bool) (d : Dictionary κ α) (key : κ) :
    (d.filter keep).get? key = (d.get? key).filter (keep key) := by
  apply Option.ext
  intro value
  rw [get?_eq_some_iff, Option.filter_eq_some_iff, get?_eq_some_iff]
  simp [filter]

@[simp] theorem get?_map (f : α → β) (d : Dictionary κ α) (key : κ) :
    (d.map f).get? key = (d.get? key).map f := by
  apply Option.ext
  intro value
  rw [get?_eq_some_iff, Option.map_eq_some_iff]
  simp only [get?_eq_some_iff, map, List.mem_map, Prod.mk.injEq, Prod.exists]
  constructor
  · rintro ⟨k, v, h, rfl, rfl⟩; exact ⟨v, h, rfl⟩
  · rintro ⟨v, h, rfl⟩; exact ⟨key, v, h, rfl, rfl⟩

theorem get?_erase (d : Dictionary κ α) (key other : κ) :
    (d.erase key).get? other = if other = key then none else d.get? other := by
  rw [erase, get?_filter]
  by_cases h : other = key <;> cases d.get? other <;> simp [h, Option.filter]

theorem get?_insert (d : Dictionary κ α) (key other : κ) (value : α) :
    (d.insert key value).get? other = if other = key then some value else d.get? other := by
  apply Option.ext
  intro v
  rw [get?_eq_some_iff]
  by_cases hmem : key ∈ d.keys
  · rw [insert, dif_pos hmem]
    simp only [List.mem_map]
    constructor
    · rintro ⟨e, he, heq⟩
      by_cases hk : e.1 = key
      · rw [if_pos hk] at heq
        obtain ⟨rfl, rfl⟩ := Prod.mk.inj heq
        simp [hk]
      · rw [if_neg hk] at heq
        subst heq
        simpa [hk, get?_eq_some_iff] using he
    · intro h
      by_cases hk : other = key
      · obtain ⟨e, he, rfl⟩ := List.mem_map.1 hmem
        rw [if_pos hk, Option.some.injEq] at h
        exact ⟨e, he, by simp [hk, h]⟩
      · rw [if_neg hk, get?_eq_some_iff] at h
        exact ⟨_, h, by simp [hk]⟩
  · rw [insert, dif_neg hmem]
    simp only [List.mem_append, List.mem_singleton, Prod.mk.injEq]
    by_cases hk : other = key
    · subst hk
      have : (other, v) ∉ d.entries := fun h => hmem (List.mem_map.2 ⟨_, h, rfl⟩)
      simp [this, eq_comm]
    · simp [hk, get?_eq_some_iff]

theorem mem_values_iff {d : Dictionary κ α} {value : α} :
    value ∈ d.values ↔ ∃ key, d.get? key = some value := by
  simp [values, get?_eq_some_iff]

theorem mem_keys_iff {d : Dictionary κ α} {key : κ} :
    key ∈ d.keys ↔ ∃ value, d.get? key = some value := by
  simp [keys, get?_eq_some_iff]

end Dictionary

end TurnRelay
