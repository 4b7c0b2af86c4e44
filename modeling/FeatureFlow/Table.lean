/-!
# Tables keyed by text

`Fields` is a plain list of key and value pairs, the form in which a value can
hold values of its own kind. `Table` adds that the keys rise strictly, so a
table is determined by its lookups (`Table.ext_get?`) and its listing is the
same however it was built.
-/

namespace FeatureFlow

abbrev Fields (α : Type u) := List (String × α)

namespace Fields

def get? (key : String) : Fields α → Option α
  | [] => none
  | (k, v) :: rest => if k = key then some v else get? key rest

/-- Keeps rising keys rising and replaces the value of a key that is there. -/
def insert (key : String) (value : α) : Fields α → Fields α
  | [] => [(key, value)]
  | (k, v) :: rest =>
    if key < k then (key, value) :: (k, v) :: rest
    else if k = key then (key, value) :: rest
    else (k, v) :: insert key value rest

def erase (key : String) (fields : Fields α) : Fields α :=
  fields.filter (·.1 ≠ key)

def keys (fields : Fields α) : List String :=
  fields.map (·.1)

/-- Later pairs win over earlier ones of the same key. -/
def insertAll (fields : Fields α) (pairs : List (String × α)) : Fields α :=
  pairs.foldl (fun acc pair => acc.insert pair.1 pair.2) fields

def ofList (pairs : List (String × α)) : Fields α :=
  insertAll [] pairs

def Rising (fields : Fields α) : Prop :=
  fields.Pairwise (·.1 < ·.1)

-- ---------------------------------------------------------------------------
-- Looking up
-- ---------------------------------------------------------------------------

@[simp] theorem get?_nil (key : String) : get? key ([] : Fields α) = none := rfl

theorem get?_insert (key other : String) (value : α) (fields : Fields α) :
    get? other (insert key value fields) =
      if key = other then some value else get? other fields := by
  induction fields with
  | nil => simp [insert, get?]
  | cons head rest ih =>
    obtain ⟨k, v⟩ := head
    by_cases hlt : key < k
    · simp [insert, hlt, get?]
    · by_cases heq : k = key
      · subst heq
        by_cases h : k = other <;> simp [insert, get?, h]
      · by_cases h : k = other
        · subst h
          simp [insert, hlt, heq, get?, Ne.symm heq]
        · simp [insert, hlt, heq, get?, h, ih]

@[simp] theorem get?_insert_self (key : String) (value : α) (fields : Fields α) :
    get? key (insert key value fields) = some value := by
  simp [get?_insert]

theorem insert_insert (key : String) (value : α) (fields : Fields α) :
    insert key value (insert key value fields) = insert key value fields := by
  induction fields with
  | nil => simp [insert]
  | cons head rest ih =>
    obtain ⟨k, v⟩ := head
    by_cases hlt : key < k
    · simp [insert, hlt]
    · by_cases heq : k = key
      · simp [insert, heq]
      · simp [insert, hlt, heq, ih]

theorem get?_filter (p : String → Bool) (key : String) (fields : Fields α) :
    get? key (fields.filter fun field => p field.1) =
      if p key then get? key fields else none := by
  induction fields with
  | nil => simp
  | cons head rest ih =>
    obtain ⟨k, v⟩ := head
    by_cases hkey : k = key
    · subst hkey
      cases hp : p k <;> simp_all [get?]
    · cases hp : p k <;> simp [hp, get?, hkey, ih]

theorem get?_erase (key other : String) (fields : Fields α) :
    get? other (erase key fields) = if key = other then none else get? other fields := by
  refine (get?_filter (· ≠ key) other fields).trans ?_
  by_cases h : key = other
  · simp [h]
  · simp [h, Ne.symm h]

theorem get?_eq_none_of_not_mem {key : String} {fields : Fields α} (h : key ∉ fields.keys) :
    get? key fields = none := by
  induction fields with
  | nil => rfl
  | cons head rest ih =>
    simp only [keys, List.map_cons, List.mem_cons, not_or] at h
    simp [get?, Ne.symm h.1, ih (by simpa [keys] using h.2)]

theorem mem_of_get? {key : String} {value : α} {fields : Fields α}
    (h : get? key fields = some value) : (key, value) ∈ fields := by
  induction fields with
  | nil => simp at h
  | cons head rest ih =>
    obtain ⟨k, v⟩ := head
    by_cases hk : k = key
    · subst hk
      simp [get?] at h
      simp [h]
    · simp [get?, hk] at h
      exact List.mem_cons_of_mem _ (ih h)

theorem get?_append (key : String) (a b : Fields α) :
    get? key (a ++ b) = (get? key a).or (get? key b) := by
  induction a with
  | nil => rfl
  | cons head rest ih =>
    by_cases h : head.1 = key
    · simp [get?, h]
    · simp [get?, h, ih]

theorem get?_insertAll (key : String) (fields : Fields α) (pairs : List (String × α)) :
    get? key (insertAll fields pairs) = (get? key pairs.reverse).or (get? key fields) := by
  induction pairs generalizing fields with
  | nil => rfl
  | cons pair rest ih =>
    change get? key (insertAll (insert pair.1 pair.2 fields) rest) = _
    rw [ih, get?_insert, List.reverse_cons, get?_append]
    by_cases h : pair.1 = key
    · simp [get?, h]
    · simp [get?, h]

theorem get?_ofList (key : String) (pairs : List (String × α)) :
    get? key (ofList pairs) = get? key pairs.reverse := by
  simp [ofList, get?_insertAll]

theorem get?_ofList_append (key : String) (first more : List (String × α)) :
    get? key (ofList (first ++ more)) = (get? key more.reverse).or (get? key first.reverse) := by
  rw [get?_ofList, List.reverse_append, get?_append]

theorem get?_eq_some_iff_mem {key : String} {value : α} {fields : Fields α}
    (h : fields.keys.Nodup) : get? key fields = some value ↔ (key, value) ∈ fields := by
  refine ⟨mem_of_get?, fun hmem => ?_⟩
  induction fields with
  | nil => cases hmem
  | cons head rest ih =>
    obtain ⟨k, v⟩ := head
    obtain ⟨hhead, hrest⟩ := List.nodup_cons.mp h
    rcases List.mem_cons.mp hmem with heq | hmem
    · obtain ⟨rfl, rfl⟩ := Prod.mk.inj heq
      simp [get?]
    · have hne : k ≠ key := by
        rintro rfl
        exact hhead (List.mem_map.mpr ⟨_, hmem, rfl⟩)
      simpa [get?, hne] using ih hrest hmem

theorem get?_of_perm {a b : Fields α} (h : List.Perm a b) (hb : b.keys.Nodup) (key : String) :
    get? key a = get? key b := by
  have ha : a.keys.Nodup := (h.map fun pair : String × α => pair.1).nodup_iff.mpr hb
  refine Option.ext fun value => ?_
  rw [get?_eq_some_iff_mem ha, get?_eq_some_iff_mem hb, h.mem_iff]

-- ---------------------------------------------------------------------------
-- Rising keys
-- ---------------------------------------------------------------------------

theorem mem_keys_insert {k key : String} {value : α} {fields : Fields α} :
    k ∈ (insert key value fields).keys ↔ k = key ∨ k ∈ fields.keys := by
  induction fields with
  | nil => simp [insert, keys]
  | cons head rest ih =>
    obtain ⟨first, v⟩ := head
    by_cases hlt : key < first
    · simp [insert, hlt, keys]
    · by_cases heq : first = key
      · subst heq
        simp [insert, keys]
      · simp only [insert, hlt, heq, if_false]
        simp only [keys, List.map_cons, List.mem_cons] at ih ⊢
        rw [ih]
        simp only [or_left_comm]

theorem Rising.insert {fields : Fields α} (h : fields.Rising) (key : String) (value : α) :
    (Fields.insert key value fields).Rising := by
  induction fields with
  | nil => simp [Fields.insert, Rising]
  | cons head rest ih =>
    obtain ⟨first, v⟩ := head
    obtain ⟨hhead, hrest⟩ := List.pairwise_cons.mp h
    by_cases hlt : key < first
    · simp only [Fields.insert, hlt, if_true]
      refine List.pairwise_cons.mpr ⟨?_, h⟩
      intro entry hentry
      rcases List.mem_cons.mp hentry with rfl | hmem
      · exact hlt
      · exact String.lt_trans hlt (hhead entry hmem)
    · by_cases heq : first = key
      · subst heq
        simp only [Fields.insert, hlt, if_true, if_false]
        exact List.pairwise_cons.mpr ⟨hhead, hrest⟩
      · simp only [Fields.insert, hlt, heq, if_false]
        refine List.pairwise_cons.mpr ⟨?_, ih hrest⟩
        intro entry hentry
        have hk : entry.1 ∈ (Fields.insert key value rest).keys :=
          List.mem_map.mpr ⟨entry, hentry, rfl⟩
        rcases mem_keys_insert.mp hk with hkey | hkey
        · show first < entry.1
          rw [hkey]
          rcases Std.lt_trichotomy first key with h | h | h
          · exact h
          · exact absurd h heq
          · exact absurd h hlt
        · obtain ⟨other, hother, hname⟩ := List.mem_map.mp hkey
          show first < entry.1
          rw [← hname]
          exact hhead other hother

theorem Rising.insertAll {fields : Fields α} (h : fields.Rising) (pairs : List (String × α)) :
    (Fields.insertAll fields pairs).Rising := by
  induction pairs generalizing fields with
  | nil => exact h
  | cons pair rest ih => exact ih (h.insert pair.1 pair.2)

theorem rising_ofList (pairs : List (String × α)) : (ofList pairs).Rising :=
  Rising.insertAll .nil pairs

theorem Rising.erase {fields : Fields α} (h : fields.Rising) (key : String) :
    (Fields.erase key fields).Rising :=
  List.Pairwise.filter _ h

theorem Rising.tail {head : String × α} {rest : Fields α} (h : Rising (head :: rest)) :
    rest.Rising :=
  (List.pairwise_cons.mp h).2

theorem Rising.get?_head_rest {k : String} {v : α} {rest : Fields α}
    (h : Rising ((k, v) :: rest)) : get? k rest = none := by
  apply get?_eq_none_of_not_mem
  intro hmem
  obtain ⟨other, hother, hname⟩ := List.mem_map.mp hmem
  have hlt := (List.pairwise_cons.mp h).1 other hother
  rw [hname] at hlt
  exact String.lt_irrefl k hlt

theorem get?_of_mem {key : String} {value : α} {fields : Fields α} (h : fields.Rising)
    (hmem : (key, value) ∈ fields) : get? key fields = some value := by
  induction fields with
  | nil => simp at hmem
  | cons head rest ih =>
    obtain ⟨k, v⟩ := head
    rcases List.mem_cons.mp hmem with heq | hrest
    · simp only [Prod.mk.injEq] at heq
      simp [get?, heq.1, heq.2]
    · have hne : k ≠ key := by
        intro hk
        have hlt := (List.pairwise_cons.mp h).1 _ hrest
        exact String.lt_irrefl key (hk ▸ hlt)
      simp [get?, hne, ih h.tail hrest]

theorem Rising.ext {a b : Fields α} (ha : a.Rising) (hb : b.Rising)
    (h : ∀ key, get? key a = get? key b) : a = b := by
  induction a generalizing b with
  | nil =>
    cases b with
    | nil => rfl
    | cons head rest => have := h head.1; simp [get?] at this
  | cons head rest ih =>
    obtain ⟨k, v⟩ := head
    cases b with
    | nil => have := h k; simp [get?] at this
    | cons other tail =>
      obtain ⟨k', v'⟩ := other
      have hk : k = k' := by
        rcases Std.lt_trichotomy k k' with hlt | heq | hgt
        · have hval := h k
          simp only [get?, if_true, if_neg (fun e => String.lt_irrefl k (e ▸ hlt) : k' ≠ k)] at hval
          have hmem := mem_of_get? hval.symm
          exact absurd (String.lt_trans hlt ((List.pairwise_cons.mp hb).1 _ hmem))
            (String.lt_irrefl k)
        · exact heq
        · have hval := h k'
          simp only [get?, if_true,
            if_neg (fun e => String.lt_irrefl k' (e ▸ hgt) : k ≠ k')] at hval
          have hmem := mem_of_get? hval
          exact absurd (String.lt_trans hgt ((List.pairwise_cons.mp ha).1 _ hmem))
            (String.lt_irrefl k')
      subst hk
      have hv : v = v' := by
        have hval := h k
        simpa [get?] using hval
      subst hv
      congr 1
      apply ih ha.tail hb.tail
      intro key
      by_cases hkey : k = key
      · subst hkey
        rw [ha.get?_head_rest, hb.get?_head_rest]
      · have hval := h key
        simpa [get?, hkey] using hval

end Fields

-- ---------------------------------------------------------------------------
-- Tables
-- ---------------------------------------------------------------------------

structure Table (α : Type u) where
  entries : Fields α
  rising : entries.Rising

namespace Table

instance : EmptyCollection (Table α) := ⟨⟨[], List.Pairwise.nil⟩⟩

instance : Inhabited (Table α) := ⟨∅⟩

instance [DecidableEq α] : DecidableEq (Table α) := fun a b =>
  decidable_of_iff (a.entries = b.entries) (by cases a; cases b; simp)

def get? (table : Table α) (key : String) : Option α :=
  table.entries.get? key

def contains (table : Table α) (key : String) : Bool :=
  (table.get? key).isSome

def insert (table : Table α) (key : String) (value : α) : Table α :=
  ⟨table.entries.insert key value, table.rising.insert key value⟩

def erase (table : Table α) (key : String) : Table α :=
  ⟨table.entries.erase key, table.rising.erase key⟩

def filterKeys (p : String → Bool) (table : Table α) : Table α :=
  ⟨table.entries.filter fun field => p field.1, List.Pairwise.filter _ table.rising⟩

def keys (table : Table α) : List String :=
  table.entries.keys

def values (table : Table α) : List α :=
  table.entries.map (·.2)

def size (table : Table α) : Nat :=
  table.entries.length

def ofList (pairs : List (String × α)) : Table α :=
  pairs.foldl (fun acc pair => acc.insert pair.1 pair.2) ∅

@[simp] theorem get?_empty (key : String) : (∅ : Table α).get? key = none := rfl

theorem get?_insert (table : Table α) (key other : String) (value : α) :
    (table.insert key value).get? other = if key = other then some value else table.get? other :=
  Fields.get?_insert key other value table.entries

@[simp] theorem get?_insert_self (table : Table α) (key : String) (value : α) :
    (table.insert key value).get? key = some value :=
  Fields.get?_insert_self key value table.entries

theorem get?_erase (table : Table α) (key other : String) :
    (table.erase key).get? other = if key = other then none else table.get? other :=
  Fields.get?_erase key other table.entries

theorem get?_filterKeys (p : String → Bool) (table : Table α) (key : String) :
    (table.filterKeys p).get? key = if p key then table.get? key else none :=
  Fields.get?_filter p key table.entries

theorem get?_of_get?_erase {table : Table α} {key other : String} {value : α}
    (h : (table.erase key).get? other = some value) : table.get? other = some value := by
  rw [get?_erase] at h
  split at h
  · simp at h
  · exact h

theorem size_erase_lt {table : Table α} {key : String} {value : α}
    (h : table.get? key = some value) : (table.erase key).size < table.size := by
  have hmem := Fields.mem_of_get? h
  simp only [size, erase, Fields.erase]
  exact List.length_filter_lt_length_iff_exists.mpr ⟨(key, value), hmem, by simp⟩

theorem get?_of_mem_keys {table : Table α} {key : String} (h : key ∈ table.keys) :
    ∃ value, table.get? key = some value := by
  obtain ⟨⟨found, value⟩, hmem, rfl⟩ := List.mem_map.mp h
  exact ⟨value, Fields.get?_of_mem table.rising hmem⟩

theorem mem_keys_iff {table : Table α} {key : String} :
    key ∈ table.keys ↔ (table.get? key).isSome = true := by
  constructor
  · intro h
    obtain ⟨value, hvalue⟩ := get?_of_mem_keys h
    simp [hvalue]
  · intro h
    obtain ⟨value, hvalue⟩ := Option.isSome_iff_exists.mp h
    exact List.mem_map.mpr ⟨(key, value), Fields.mem_of_get? hvalue, rfl⟩

theorem nodup_keys (table : Table α) : table.keys.Nodup := by
  refine List.pairwise_map.mpr (table.rising.imp ?_)
  intro a b hlt heq
  exact String.lt_irrefl a.1 (heq ▸ hlt)

theorem mem_of_get?_foldl {pairs : List (String × α)} {table : Table α} {key : String} {value : α}
    (h : (pairs.foldl (fun acc pair => acc.insert pair.1 pair.2) table).get? key = some value) :
    (key, value) ∈ pairs ∨ table.get? key = some value := by
  induction pairs generalizing table with
  | nil => exact .inr h
  | cons pair rest ih =>
    rcases ih h with hrest | hhead
    · exact .inl (List.mem_cons_of_mem _ hrest)
    · rw [get?_insert] at hhead
      split at hhead
      · rename_i hkey
        obtain rfl := Option.some.inj hhead
        exact .inl (hkey ▸ List.mem_cons_self)
      · exact .inr hhead

theorem mem_of_get?_ofList {pairs : List (String × α)} {key : String} {value : α}
    (h : (ofList pairs).get? key = some value) : (key, value) ∈ pairs := by
  rcases mem_of_get?_foldl h with hmem | hempty
  · exact hmem
  · simp at hempty

theorem entries_ofList (pairs : List (String × α)) :
    (ofList pairs).entries = Fields.ofList pairs := by
  suffices h : ∀ table : Table α,
      (pairs.foldl (fun acc pair => acc.insert pair.1 pair.2) table).entries =
        Fields.insertAll table.entries pairs from h ∅
  induction pairs with
  | nil => exact fun _ => rfl
  | cons pair rest ih => exact fun table => ih (table.insert pair.1 pair.2)

theorem get?_ofList (key : String) (pairs : List (String × α)) :
    (ofList pairs).get? key = Fields.get? key pairs.reverse := by
  rw [get?, entries_ofList, Fields.get?_ofList]

theorem ext_get? {a b : Table α} (h : ∀ key, a.get? key = b.get? key) : a = b := by
  obtain ⟨entries, ha⟩ := a
  obtain ⟨entries', hb⟩ := b
  have heq : entries = entries' := ha.ext hb h
  subst heq
  rfl

theorem ofList_of_perm {table : Table α} {pairs : List (String × α)}
    (h : pairs.Perm table.entries) : ofList pairs = table := by
  refine ext_get? fun key => ?_
  rw [get?_ofList]
  exact Fields.get?_of_perm (pairs.reverse_perm.trans h) table.nodup_keys key

theorem mem_values_iff {table : Table α} {value : α} :
    value ∈ table.values ↔ ∃ key, table.get? key = some value := by
  constructor
  · intro hmem
    obtain ⟨⟨key, found⟩, hentry, rfl⟩ := List.mem_map.mp hmem
    exact ⟨key, Fields.get?_of_mem table.rising hentry⟩
  · rintro ⟨key, hget⟩
    exact List.mem_map.mpr ⟨(key, value), Fields.mem_of_get? hget, rfl⟩

-- ---------------------------------------------------------------------------
-- Values that know their keys
-- ---------------------------------------------------------------------------

section

variable {table : Table α} {keyOf : α → String}

theorem map_values (hkey : ∀ key value, table.get? key = some value → keyOf value = key) :
    table.values.map keyOf = table.keys := by
  rw [values, keys, Fields.keys, List.map_map]
  refine List.map_congr_left fun entry hentry => ?_
  exact hkey entry.1 entry.2 (Fields.get?_of_mem table.rising hentry)

theorem ofList_of_perm_values (hkey : ∀ key value, table.get? key = some value → keyOf value = key)
    {list : List α} (h : list.Perm table.values) :
    ofList (list.map fun value => (keyOf value, value)) = table := by
  have hentries : table.values.map (fun value => (keyOf value, value)) = table.entries := by
    rw [values, List.map_map]
    refine (List.map_congr_left fun entry hentry => ?_).trans (List.map_id _)
    exact Prod.ext (hkey entry.1 entry.2 (Fields.get?_of_mem table.rising hentry)) rfl
  exact ofList_of_perm (hentries ▸ h.map _)

end

end Table

end FeatureFlow
