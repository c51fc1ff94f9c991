/-
Entries in the order in which their keys were first written. Writing a key again replaces its value and keeps its place.
-/

namespace MakeAtlas

/-- values under names, in order -/
abbrev Entries (α : Type) := List (String × α)

namespace Entries

variable {α : Type}

def value? (es : Entries α) (key : String) : Option α := es.lookup key

def keys (es : Entries α) : List String := es.map (·.1)

def put (key : String) (value : α) : Entries α → Entries α
  | [] => [(key, value)]
  | e :: es => if e.1 == key then (key, value) :: es else e :: put key value es

def erase (key : String) (es : Entries α) : Entries α := es.filter (·.1 != key)

/-- the result of `f` applied to the value under the key, or to `fresh` when there is none -/
def adjust (key : String) (fresh : α) (f : α → α) (es : Entries α) : Entries α :=
  put key (f ((es.value? key).getD fresh)) es

@[simp] theorem value?_nil (key : String) : value? ([] : Entries α) key = none := rfl

theorem value?_cons (e : String × α) (es : Entries α) (key : String) :
    value? (e :: es) key = if key = e.1 then some e.2 else value? es key := by
  unfold value?
  rw [List.lookup_cons]
  by_cases h : key = e.1
  · simp [h]
  · simp [beq_false_of_ne h, h]

/-- each of these names under its value -/
theorem value?_map (f : String → α) (names : List String) (key : String) :
    value? (names.map fun name => (name, f name)) key = if key ∈ names then some (f key) else none := by
  induction names with
  | nil => rfl
  | cons name names ih =>
    rw [List.map_cons, value?_cons, ih]
    by_cases h : key = name <;> simp [h]

theorem mem_of_value? {es : Entries α} {key : String} {value : α} (h : es.value? key = some value) :
    (key, value) ∈ es := by
  induction es with
  | nil => simp at h
  | cons e es ih =>
    rw [value?_cons] at h
    by_cases he : key = e.1
    · rw [if_pos he, Option.some.injEq] at h
      rw [he, ← h]
      exact List.mem_cons_self
    · rw [if_neg he] at h
      exact List.mem_cons_of_mem _ (ih h)

theorem value?_of_mem {es : Entries α} {key : String} {value : α} (hnd : es.keys.Nodup) (h : (key, value) ∈ es) :
    es.value? key = some value := by
  induction es with
  | nil => cases h
  | cons e es ih =>
    rw [keys, List.map_cons, List.nodup_cons] at hnd
    rw [value?_cons]
    rcases List.mem_cons.1 h with rfl | hmem
    · exact if_pos rfl
    · have hother : key ≠ e.1 := fun hkey => hnd.1 (hkey ▸ List.mem_map_of_mem (f := (·.1)) hmem)
      rw [if_neg hother]
      exact ih hnd.2 hmem

/-- a written key has its value; the other keys keep theirs -/
theorem value?_put (key : String) (value : α) (es : Entries α) (k : String) :
    (es.put key value).value? k = if k = key then some value else es.value? k := by
  induction es with
  | nil => simp [put, value?_cons]
  | cons e es ih =>
    by_cases he : e.1 = key
    · rw [put, if_pos (by simpa using he), value?_cons, value?_cons, he]
      by_cases hk : k = key <;> simp [hk]
    · rw [put, if_neg (by simpa using he), value?_cons, value?_cons, ih]
      by_cases hk : k = e.1
      · simp [hk, he]
      · simp [hk]

@[simp] theorem value?_put_self (key : String) (value : α) (es : Entries α) :
    (es.put key value).value? key = some value := by
  simp [value?_put]

theorem value?_put_of_ne {key k : String} (h : k ≠ key) (value : α) (es : Entries α) :
    (es.put key value).value? k = es.value? k := by
  simp [value?_put, h]

theorem mem_put {key : String} {value : α} {es : Entries α} {e : String × α} (h : e ∈ es.put key value) :
    e = (key, value) ∨ e ∈ es := by
  induction es with
  | nil => exact .inl (List.mem_singleton.1 h)
  | cons e' es ih =>
    rw [put] at h
    split at h
    · exact (List.mem_cons.1 h).imp_right (List.mem_cons_of_mem _)
    · rcases List.mem_cons.1 h with rfl | h
      · exact .inr List.mem_cons_self
      · exact (ih h).imp_right (List.mem_cons_of_mem _)

/-- a value written over mapped keys -/
theorem put_map {keys : List String} (hnd : keys.Nodup) (f : String → α) (key : String) (value : α) :
    put key value (keys.map fun k => (k, f k)) =
      (if key ∈ keys then keys else keys ++ [key]).map fun k => (k, if k = key then value else f k) := by
  induction keys with
  | nil => simp [put]
  | cons k keys ih =>
    rw [List.nodup_cons] at hnd
    rw [List.map_cons, put]
    by_cases hk : k = key
    · have hrest : ∀ j ∈ keys, (j, f j) = (j, if j = key then value else f j) := by
        intro j hj
        have hne : j ≠ key := fun h => hnd.1 (hk ▸ h ▸ hj)
        simp [hne]
      simpa [hk] using hrest
    · have hmem : key ∈ k :: keys ↔ key ∈ keys := by simp [Ne.symm hk]
      rw [if_neg (by simpa using hk), ih hnd.2]
      by_cases h : key ∈ keys <;> simp [h, hk, Ne.symm hk]

/-- an erased key has no value; the other keys keep theirs -/
theorem value?_erase (key : String) (es : Entries α) (k : String) :
    (es.erase key).value? k = if k = key then none else es.value? k := by
  induction es with
  | nil => simp [erase]
  | cons e es ih =>
    rw [erase] at ih ⊢
    by_cases he : e.1 = key
    · rw [List.filter_cons_of_neg (by simpa using he), ih, value?_cons, he]
      by_cases hk : k = key <;> simp [hk]
    · rw [List.filter_cons_of_pos (by simpa using he), value?_cons, value?_cons, ih]
      by_cases hk : k = e.1
      · simp [hk, he]
      · simp [hk]

theorem value?_erase_of_ne {key k : String} (h : k ≠ key) (es : Entries α) : (es.erase key).value? k = es.value? k := by
  simp [value?_erase, h]

/-- the keys are those with a value -/
theorem mem_keys_iff {es : Entries α} {key : String} : key ∈ es.keys ↔ (es.value? key).isSome := by
  induction es with
  | nil => simp [keys]
  | cons e es ih =>
    rw [value?_cons, keys, List.map_cons, List.mem_cons, ← keys, ih]
    by_cases he : key = e.1 <;> simp [he]

/-- a new key comes last, and one that is there stays where it is -/
theorem keys_put (key : String) (value : α) (es : Entries α) :
    (es.put key value).keys = if key ∈ es.keys then es.keys else es.keys ++ [key] := by
  induction es with
  | nil => rfl
  | cons e es ih =>
    by_cases he : e.1 = key
    · simp [put, keys, he]
    · have hmem : key ∈ keys (e :: es) ↔ key ∈ keys es := by simp [keys, Ne.symm he]
      rw [put, if_neg (by simpa using he), keys, List.map_cons, ← keys, ih]
      by_cases h : key ∈ keys es <;> simp [h, hmem] <;> rfl

/-- a new key is written behind the others -/
theorem put_of_new {key : String} {es : Entries α} (h : es.value? key = none) (value : α) :
    es.put key value = es ++ [(key, value)] := by
  induction es with
  | nil => rfl
  | cons e es ih =>
    rw [value?_cons] at h
    by_cases he : key = e.1
    · rw [if_pos he] at h
      cases h
    · rw [if_neg he] at h
      rw [put, if_neg (by simpa using Ne.symm he), ih h, List.cons_append]

theorem keys_erase (key : String) (es : Entries α) : (es.erase key).keys = es.keys.filter (· != key) := by
  rw [keys, keys, erase, List.filter_map]
  rfl

/-- an erased value leaves fewer entries -/
theorem length_erase_lt {key : String} {value : α} {es : Entries α} (h : es.value? key = some value) :
    (es.erase key).length < es.length :=
  List.length_filter_lt_length_iff_exists.2 ⟨(key, value), mem_of_value? h, by simp⟩

/-- writing over a value changes a count of values by what the old and the new value count for -/
theorem countP_put {key : String} {old : α} {es : Entries α} (h : es.value? key = some old) (value : α) (p : α → Bool) :
    (es.put key value).countP (p ·.2) + (if p old then 1 else 0) = es.countP (p ·.2) + (if p value then 1 else 0) := by
  induction es with
  | nil => simp at h
  | cons e es ih =>
    rw [value?_cons] at h
    by_cases he : e.1 = key
    · rw [if_pos he.symm, Option.some.injEq] at h
      rw [put, if_pos (by simpa using he), List.countP_cons, List.countP_cons, h]
      simp only
      omega
    · rw [if_neg (fun hk => he hk.symm)] at h
      have := ih h
      rw [put, if_neg (by simpa using he), List.countP_cons, List.countP_cons]
      omega

/-- a new key adds what its value counts for -/
theorem countP_put_new {key : String} {es : Entries α} (h : es.value? key = none) (value : α) (p : α → Bool) :
    (es.put key value).countP (p ·.2) = es.countP (p ·.2) + (if p value then 1 else 0) := by
  induction es with
  | nil => simp [put, List.countP_cons]
  | cons e es ih =>
    rw [value?_cons] at h
    by_cases he : e.1 = key
    · rw [if_pos he.symm] at h; simp at h
    · rw [if_neg (fun hk => he hk.symm)] at h
      have := ih h
      rw [put, if_neg (by simpa using he), List.countP_cons, List.countP_cons]
      omega

end Entries

end MakeAtlas
