import Mathlib.Data.List.AList
import Mathlib.Data.List.Infix

namespace OrderedMap

open List AList

variable {Key Value : Type} [DecidableEq Key]

abbrev Table (Key Value : Type) := AList fun _ : Key => Value

variable (table : Table Key Value)

-- A range over a map visits its keys in an unspecified order; the caller's order is used when it is one of them.
def visit (order : List Key) : List Key :=
  if order.Perm table.keys then order else table.keys

theorem visit_perm (order : List Key) : (visit table order).Perm table.keys := by
  unfold visit
  split
  · assumption
  · exact Perm.refl _

theorem lookup_insert_cases {table : Table Key Value} {key other : Key} {value found : Value}
    (present : (table.insert key value).lookup other = some found) :
    (other = key ∧ found = value) ∨ (other ≠ key ∧ table.lookup other = some found) := by
  by_cases same : other = key
  · subst same
    rw [lookup_insert] at present
    exact .inl ⟨rfl, (Option.some.inj present).symm⟩
  · rw [lookup_insert_ne same] at present
    exact .inr ⟨same, present⟩

theorem lookup_erase_some {table : Table Key Value} {key other : Key} {found : Value}
    (present : (table.erase key).lookup other = some found) : table.lookup other = some found := by
  by_cases same : other = key
  · rw [same, lookup_erase] at present
    contradiction
  · rwa [lookup_erase_ne same] at present

theorem lookup_insert_other {Item : Type} {key : Item → Key} {value : Item → Value} {items : List Item} {other : Key}
    (absent : other ∉ items.map key) (base : Table Key Value) :
    (items.foldl (fun table item => table.insert (key item) (value item)) base).lookup other = base.lookup other := by
  induction items generalizing base with
  | nil => rfl
  | cons first rest ih =>
    obtain ⟨apart, absent⟩ := not_or.mp (mem_cons.not.mp (map_cons ▸ absent))
    rw [foldl_cons, ih absent, lookup_insert_ne apart]

theorem lookup_insert_member {Item : Type} {key : Item → Key} {value : Item → Value} {items : List Item} (distinct : (items.map key).Nodup)
    {item : Item} (member : item ∈ items) (base : Table Key Value) :
    (items.foldl (fun table item => table.insert (key item) (value item)) base).lookup (key item) = some (value item) := by
  induction items generalizing base with
  | nil => cases member
  | cons first rest ih =>
    obtain ⟨fresh, distinct⟩ := nodup_cons.mp (map_cons ▸ distinct)
    rw [foldl_cons]
    rcases mem_cons.mp member with rfl | later
    · rw [lookup_insert_other fresh, lookup_insert]
    · exact ih distinct later _

section Rebuilt

variable {Result : Type}

-- A table written again entry by entry, under keys the writing does not alter.
theorem lookup_rebuilt {rename : Key → Key} {write : Value → Result} {entries : List (Σ _ : Key, Value)} (distinct : entries.NodupKeys)
    (fixed : ∀ entry ∈ entries, rename entry.1 = entry.1) (base : Table Key Result) (key : Key) :
    (entries.foldl (fun table entry => table.insert (rename entry.1) (write entry.2)) base).lookup key =
      ((entries.dlookup key).map write).or (base.lookup key) := by
  induction entries generalizing base with
  | nil => rfl
  | cons entry later ih =>
    obtain ⟨fresh, distinct⟩ := nodupKeys_cons.mp distinct
    rw [foldl_cons, fixed entry mem_cons_self, ih distinct fun entry listed => fixed entry (mem_cons_of_mem _ listed)]
    by_cases same : key = entry.1
    · subst same
      rw [dlookup_eq_none.mpr fresh, dlookup_cons_eq, lookup_insert]
      rfl
    · rw [dlookup_cons_ne _ _ same, lookup_insert_ne same]

theorem lookup_rebuilt_keys {read : Key → Option Result} (keys : List Key) (base : Table Key Result) (key : Key) :
    (keys.foldl (fun table key => (read key).elim table fun value => table.insert key value) base).lookup key = if key ∈ keys then (read key).or (base.lookup key) else base.lookup key := by
  induction keys generalizing base with
  | nil => rfl
  | cons first later ih =>
    rw [foldl_cons, ih]
    by_cases same : key = first
    · subst same
      cases read key with
      | none | some value => simp
    · cases read first with
      | none => simp [same]
      | some value => simp [same, lookup_insert_ne same]

end Rebuilt

end OrderedMap

namespace PrefixStore

open OrderedMap List AList

variable {Symbol Value : Type} [DecidableEq Symbol]

section Scanning

variable [LT Symbol] [DecidableLT Symbol] (table : Table (List Symbol) Value)

-- An iterator over the keys that start with a prefix, in the order of the keys.
def scan (front : List Symbol) : List (List Symbol × Value) :=
  let entries := (table.entries.filter fun entry => front <+: entry.1).map fun entry => (entry.1, entry.2)
  entries.mergeSort fun left right => left.1 ≤ right.1

theorem mem_scan {table : Table (List Symbol) Value} {front key : List Symbol} {value : Value} :
    (key, value) ∈ scan table front ↔ front <+: key ∧ table.lookup key = some value := by
  rw [scan, mem_mergeSort, mem_map]
  constructor
  · rintro ⟨⟨found, held⟩, listed, shown⟩
    cases shown
    obtain ⟨listed, fits⟩ := mem_filter.mp listed
    exact ⟨of_decide_eq_true fits, mem_lookup_iff.mpr listed⟩
  · rintro ⟨fits, listed⟩
    exact ⟨⟨key, value⟩, mem_filter.mpr ⟨mem_lookup_iff.mp listed, decide_eq_true fits⟩, rfl⟩

theorem scan_keys_nodup (front : List Symbol) : ((scan table front).map Prod.fst).Nodup := by
  unfold scan
  rw [((mergeSort_perm _ _).map Prod.fst).nodup_iff, map_map]
  exact ((filter_sublist (l := table.entries)).map Sigma.fst).nodup table.keys_nodup

-- Tables that agree under the prefix are scanned alike, whatever the order in which they were filled.
theorem scan_congr [LE Symbol] [Std.IsLinearOrder Symbol] [Std.LawfulOrderLT Symbol] {left right : Table (List Symbol) Value}
    {front : List Symbol} (same : ∀ key, front <+: key → left.lookup key = right.lookup key) : scan left front = scan right front := by
  have members : ∀ entry, entry ∈ scan left front ↔ entry ∈ scan right front := by
    rintro ⟨key, value⟩
    rw [mem_scan, mem_scan]
    exact and_congr_right fun under => by rw [same key under]
  have sorted : ∀ table : Table (List Symbol) Value, (scan table front).Pairwise fun first second => decide (first.1 ≤ second.1) = true := by
    intro table
    refine pairwise_mergeSort (fun first second third before after => ?_) (fun first second => ?_) _
    · exact decide_eq_true (List.le_trans (of_decide_eq_true before) (of_decide_eq_true after))
    · simpa using List.le_total first.1 second.1
  refine Perm.eq_of_pairwise ?_ (sorted left) (sorted right) ?_
  · rintro ⟨key, value⟩ ⟨other, held⟩ inLeft inRight before after
    obtain rfl : key = other := List.le_antisymm (of_decide_eq_true before) (of_decide_eq_true after)
    have found := (mem_scan.mp ((members (key, value)).mp inLeft)).2
    rw [(mem_scan.mp inRight).2] at found
    rw [Option.some.inj found]
  · exact (perm_ext_iff_of_nodup (scan_keys_nodup left front).of_map (scan_keys_nodup right front).of_map).mpr members

end Scanning

variable (table : Table (List Symbol) Value)

def erasePrefix (front : List Symbol) : Table (List Symbol) Value :=
  (table.keys.filter fun key => front <+: key).foldl (fun kept key => kept.erase key) table

def putAll (puts : List (List Symbol × Value)) : Table (List Symbol) Value :=
  puts.foldl (fun held put => held.insert put.1 put.2) table

theorem lookup_erase_all (keys : List (List Symbol)) (table : Table (List Symbol) Value) (key : List Symbol) :
    (keys.foldl (fun kept key => kept.erase key) table).lookup key = if key ∈ keys then none else table.lookup key := by
  induction keys generalizing table with
  | nil => rfl
  | cons first rest ih =>
    rw [foldl_cons, ih]
    by_cases same : key = first
    · subst same
      simp
    · simp [same, lookup_erase_ne same]

theorem lookup_erase_prefix (front key : List Symbol) : (erasePrefix table front).lookup key = if front <+: key then none else table.lookup key := by
  rw [erasePrefix, lookup_erase_all]
  by_cases fits : front <+: key
  · rw [if_pos fits]
    by_cases listed : key ∈ table.keys
    · rw [if_pos (mem_filter.mpr ⟨listed, decide_eq_true fits⟩)]
    · rw [if_neg (fun kept => listed (mem_filter.mp kept).1)]
      exact lookup_eq_none.mpr (mt AList.mem_keys.mp listed)
  · have kept : key ∉ table.keys.filter fun key => front <+: key := fun listed => fits (of_decide_eq_true (mem_filter.mp listed).2)
    rw [if_neg fits, if_neg kept]

theorem lookup_put_all_some {puts : List (List Symbol × Value)} (distinct : (puts.map Prod.fst).Nodup) (table : Table (List Symbol) Value)
    (key : List Symbol) (value : Value) :
    (putAll table puts).lookup key = some value ↔ (key, value) ∈ puts ∨ (key ∉ puts.map Prod.fst ∧ table.lookup key = some value) := by
  induction puts generalizing table with
  | nil => simp [putAll]
  | cons first rest ih =>
    obtain ⟨fresh, distinct⟩ := nodup_cons.mp (map_cons ▸ distinct)
    rw [show putAll table (first :: rest) = putAll (table.insert first.1 first.2) rest from rfl, ih distinct, mem_cons, map_cons, mem_cons]
    by_cases same : key = first.1
    · subst same
      have later : (first.1, value) ∉ rest := fun listed => fresh (mem_map.mpr ⟨_, listed, rfl⟩)
      simp [fresh, later, Prod.ext_iff, eq_comm]
    · have other : (key, value) ≠ first := fun named => same (congrArg Prod.fst named)
      simp [same, other, lookup_insert_ne same]

end PrefixStore
