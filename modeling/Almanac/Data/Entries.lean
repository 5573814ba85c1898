/-!
# Ordered entries

A list of keys with their values, in the order in which the keys came. Putting a value under a key
that is there already changes the value and leaves the key in its place; a new key goes to the
end. A list that is built by `put` alone holds each key once.
-/

namespace Almanac.Data

/-- Keys with their values, in order. -/
abbrev Entries (α : Type) (β : Type) := List (α × β)

namespace Entries

variable {α β : Type} [DecidableEq α]

def get? (entries : Entries α β) (key : α) : Option β :=
  match entries with
  | [] => none
  | (k, v) :: rest => if k = key then some v else get? rest key

def has (entries : Entries α β) (key : α) : Bool :=
  (entries.get? key).isSome

/-- The entries with the value under the key, in the key's own place or at the end. -/
def put (entries : Entries α β) (key : α) (value : β) : Entries α β :=
  match entries with
  | [] => [(key, value)]
  | (k, v) :: rest => if k = key then (k, value) :: rest else (k, v) :: put rest key value

def putAll (entries : Entries α β) (more : List (α × β)) : Entries α β :=
  more.foldl (fun known entry => known.put entry.1 entry.2) entries

/-- The entries for a list of keys and values that may repeat keys. -/
def ofList (pairs : List (α × β)) : Entries α β :=
  putAll [] pairs

omit [DecidableEq α] in
def keys (entries : Entries α β) : List α :=
  entries.map Prod.fst

omit [DecidableEq α] in
def values (entries : Entries α β) : List β :=
  entries.map Prod.snd

/-- A value that was put under a key is found there, and no other key changes. -/
@[simp] theorem get?_put (entries : Entries α β) (key other : α) (value : β) :
    (entries.put key value).get? other =
      if key = other then some value else entries.get? other := by
  induction entries with
  | nil => simp [put, get?]
  | cons entry rest ih =>
      obtain ⟨k, v⟩ := entry
      by_cases hk : k = key
      · subst hk
        by_cases ho : k = other <;> simp [put, get?, ho]
      · by_cases ho : k = other
        · subst ho
          simp [put, get?, hk, Ne.symm hk]
        · simp [put, get?, hk, ho, ih]

/-- Of the values that are put under one key the last counts. -/
theorem get?_putAll (entries : Entries α β) (more : List (α × β)) (key : α) :
    (entries.putAll more).get? key =
      ((more.filter fun entry => entry.1 = key).getLast?.map Prod.snd).or (entries.get? key) := by
  unfold putAll
  induction more generalizing entries with
  | nil => rfl
  | cons entry more ih =>
      rw [List.foldl_cons, ih, get?_put]
      by_cases hkey : entry.1 = key
      · rw [List.filter_cons_of_pos (by simpa using hkey), if_pos hkey, List.getLast?_cons]
        cases (more.filter fun entry => entry.1 = key).getLast? <;> rfl
      · rw [List.filter_cons_of_neg (by simpa using hkey), if_neg hkey]

/-- It is the same to change all values before or behind putting one. -/
theorem put_mapValues {γ : Type} (g : β → γ) (entries : Entries α β) (key : α) (value : β) :
    put (entries.map fun entry => (entry.1, g entry.2)) key (g value) =
      (entries.put key value).map fun entry => (entry.1, g entry.2) := by
  induction entries with
  | nil => rfl
  | cons entry rest ih =>
      by_cases hkey : entry.1 = key
      · simp [put, hkey]
      · simpa [put, hkey] using ih

theorem putAll_mapValues {γ : Type} (g : β → γ) (entries : Entries α β) (more : List (α × β)) :
    putAll (entries.map fun entry => (entry.1, g entry.2))
        (more.map fun entry => (entry.1, g entry.2)) =
      (entries.putAll more).map fun entry => (entry.1, g entry.2) := by
  unfold putAll
  induction more generalizing entries with
  | nil => rfl
  | cons entry more ih =>
      rw [List.map_cons, List.foldl_cons, put_mapValues, ih]
      rfl

/-- Putting a value keeps the keys as they are, with a new key at the end. -/
@[simp] theorem keys_put (entries : Entries α β) (key : α) (value : β) :
    (entries.put key value).keys =
      if key ∈ entries.keys then entries.keys else entries.keys ++ [key] := by
  induction entries with
  | nil => simp [put, keys]
  | cons entry rest ih =>
      obtain ⟨k, v⟩ := entry
      by_cases hk : k = key
      · simp [put, keys, hk]
      · have ih' : (put rest key value).map Prod.fst =
            if key ∈ rest.map Prod.fst then rest.map Prod.fst
            else rest.map Prod.fst ++ [key] := ih
        have hne : ¬ key = k := fun h => hk h.symm
        simp only [put, hk, if_false, keys, List.map_cons, ih', List.mem_cons, hne, false_or]
        split <;> rfl

/-- A key has no value just if it is none of the keys. -/
theorem get?_eq_none_iff (entries : Entries α β) (key : α) :
    entries.get? key = none ↔ key ∉ entries.keys := by
  induction entries with
  | nil => simp [get?, keys]
  | cons entry rest ih =>
      obtain ⟨k, v⟩ := entry
      by_cases hk : k = key
      · simp [get?, keys, hk]
      · have hne : ¬ key = k := fun h => hk h.symm
        simpa [get?, keys, hk, hne] using ih

@[simp] theorem has_eq_true_iff (entries : Entries α β) (key : α) :
    entries.has key = true ↔ key ∈ entries.keys := by
  have hnone := get?_eq_none_iff entries key
  unfold has
  cases hget : entries.get? key with
  | none => simpa using hnone.mp hget
  | some known => simpa [hget] using hnone

/-- What is found under a key is one of the entries. -/
theorem mem_of_get?_eq_some {entries : Entries α β} {key : α} {value : β}
    (h : entries.get? key = some value) : (key, value) ∈ entries := by
  induction entries with
  | nil => simp [get?] at h
  | cons entry rest ih =>
      obtain ⟨k, v⟩ := entry
      by_cases hk : k = key
      · have hv : v = value := by simpa [get?, hk] using h
        simp [hk, hv]
      · exact List.mem_cons_of_mem _ (ih (by simpa [get?, hk] using h))

/-- Where no key repeats, every entry is found under its key. -/
theorem get?_eq_some_of_mem {entries : Entries α β} (hkeys : entries.keys.Nodup)
    {key : α} {value : β} (h : (key, value) ∈ entries) : entries.get? key = some value := by
  induction entries with
  | nil => simp at h
  | cons entry rest ih =>
      obtain ⟨k, v⟩ := entry
      obtain ⟨hnew, hrest⟩ := List.nodup_cons.mp hkeys
      rcases List.mem_cons.mp h with heq | htail
      · obtain ⟨rfl, rfl⟩ := Prod.mk.inj heq
        simp [get?]
      · have hmem : key ∈ rest.map Prod.fst := List.mem_map.mpr ⟨(key, value), htail, rfl⟩
        have hne : k ≠ key := fun heq => hnew (heq ▸ hmem)
        simpa [get?, hne] using ih hrest htail

/-- A value under a new key goes to the end. -/
theorem put_of_get?_eq_none {entries : Entries α β} {key : α} (h : entries.get? key = none)
    (value : β) : entries.put key value = entries ++ [(key, value)] := by
  induction entries with
  | nil => rfl
  | cons entry rest ih =>
      obtain ⟨k, v⟩ := entry
      have hk : k ≠ key := fun hk => by simp [get?, hk] at h
      simp only [put, hk, if_false, List.cons_append]
      rw [ih (by simpa [get?, hk] using h)]

/-- Putting the value that is there already changes nothing. -/
theorem put_of_get?_eq_some {entries : Entries α β} {key : α} {value : β}
    (h : entries.get? key = some value) : entries.put key value = entries := by
  induction entries with
  | nil => simp [get?] at h
  | cons entry rest ih =>
      obtain ⟨k, v⟩ := entry
      by_cases hk : k = key
      · have hv : v = value := by simpa [get?, hk] using h
        simp [put, hk, hv]
      · simp only [put, hk, if_false]
        rw [ih (by simpa [get?, hk] using h)]

@[simp] theorem get?_cons (first key : α) (value : β) (rest : Entries α β) :
    Entries.get? ((first, value) :: rest) key =
      if first = key then some value else rest.get? key := rfl

/-- The first of two lists of entries goes before the second. -/
@[simp] theorem get?_append (entries more : Entries α β) (key : α) :
    Entries.get? (entries ++ more) key = (entries.get? key).or (more.get? key) := by
  induction entries with
  | nil => rfl
  | cons entry rest ih =>
      obtain ⟨k, v⟩ := entry
      by_cases hk : k = key
      · simp [get?, hk]
      · simpa [get?, hk] using ih

/-- What is found under a key is found there however the entries go on. -/
theorem get?_append_of_eq_some {entries : Entries α β} {key : α} {value : β}
    (h : entries.get? key = some value) (more : Entries α β) :
    Entries.get? (entries ++ more) key = some value := by
  rw [get?_append, h, Option.some_or]

theorem mem_put {entries : Entries α β} {key : α} {value : β} {entry : α × β}
    (h : entry ∈ entries.put key value) : entry = (key, value) ∨ entry ∈ entries := by
  induction entries with
  | nil => exact .inl (List.mem_singleton.mp h)
  | cons first rest ih =>
      obtain ⟨k, v⟩ := first
      unfold put at h
      split at h
      next hkey =>
        subst hkey
        rcases List.mem_cons.mp h with rfl | hrest
        · exact .inl rfl
        · exact .inr (List.mem_cons_of_mem _ hrest)
      next =>
        rcases List.mem_cons.mp h with rfl | hrest
        · exact .inr List.mem_cons_self
        · exact (ih hrest).imp_right (List.mem_cons_of_mem _)

/-- What is put under a key leaves all other entries as they are, in their order. -/
theorem filter_put (entries : Entries α β) (key : α) (value : β) :
    (entries.put key value).filter (fun entry => entry.1 ≠ key) =
      entries.filter fun entry => entry.1 ≠ key := by
  induction entries with
  | nil => simp [put]
  | cons first rest ih =>
      obtain ⟨k, v⟩ := first
      by_cases hkey : k = key
      · simp [put, hkey]
      · simpa [put, hkey] using ih

/-- A value that is put under a key leaves no key twice. -/
theorem nodup_keys_put {entries : Entries α β} (h : entries.keys.Nodup) (key : α) (value : β) :
    (entries.put key value).keys.Nodup := by
  rw [keys_put]
  split
  next => exact h
  next hnew =>
    refine List.nodup_append.mpr ⟨h, by simp, ?_⟩
    rintro other hmem _ hkey rfl
    exact hnew (List.mem_singleton.mp hkey ▸ hmem)

omit [DecidableEq α] in
/-- A run whose steps leave no key twice leaves no key twice. -/
theorem nodup_keys_foldl {γ : Type} {step : Entries α β → γ → Entries α β}
    (hstep : ∀ known item, known.keys.Nodup → (step known item).keys.Nodup) (items : List γ)
    {known : Entries α β} (h : known.keys.Nodup) : (items.foldl step known).keys.Nodup := by
  induction items generalizing known with
  | nil => exact h
  | cons item items ih => exact ih (hstep known item h)

/-- Where no key repeats, the order of the entries does not matter to what is found. -/
theorem get?_eq_of_perm {first second : Entries α β} (hkeys : first.keys.Nodup)
    (hperm : first.Perm second) (key : α) : first.get? key = second.get? key := by
  have hkeys' : second.keys.Nodup := (hperm.map Prod.fst).nodup_iff.mp hkeys
  apply Option.ext
  intro value
  constructor
  · intro h
    exact get?_eq_some_of_mem hkeys' (hperm.subset (mem_of_get?_eq_some h))
  · intro h
    exact get?_eq_some_of_mem hkeys (hperm.symm.subset (mem_of_get?_eq_some h))

end Entries
end Almanac.Data
