import CipherLake.Lib.Bytes
import Mathlib.Data.List.Basic

/-! The in-memory cache of object bodies: least recently used first out, within
a budget of bytes, with an expiry. -/
namespace CipherLake.Gateway
open Lib List

structure CacheItem where
  (key value : Bytes)
  createdAt : Nat
  deriving DecidableEq, Repr

/-- The items from the most to the least recently used, each key once. The map
of the source only finds them, and its byte count is the sum of their sizes. -/
structure ObjectCache where
  lruList : List CacheItem
  (maxBytes ttl : Int)
  distinct : lruList.Pairwise (·.key ≠ ·.key)

namespace ObjectCache

def new (maxBytes ttl : Int) : ObjectCache where
  lruList := []
  maxBytes := if maxBytes ≤ 0 then 30 * 2 ^ 30 else maxBytes
  ttl := if ttl ≤ 0 then 5 * 60 * 10 ^ 9 else ttl
  distinct := List.Pairwise.nil

variable (limit : Int) (now : Nat) (c : ObjectCache) (key : Bytes)

def items (key : Bytes) : Option CacheItem := c.lruList.find? (·.key = key)

def size (items : List CacheItem) : Int := (items.map fun item => (item.value.length : Int)).sum

/-- What is left without a key. -/
def without (key : Bytes) (items : List CacheItem) : List CacheItem := items.filter (·.key ≠ key)

theorem without_apart (items : List CacheItem) : ∀ item ∈ without key items, key ≠ item.key := by
  intro item kept
  obtain ⟨-, apart⟩ := mem_filter.mp kept
  exact Ne.symm (of_decide_eq_true apart)

/-- `evictOldest` in a loop, over the items from the oldest on. -/
def evict (limit : Int) : List CacheItem → List CacheItem
  | [] => []
  | oldest :: newer => if size (oldest :: newer) > limit then evict limit newer else oldest :: newer

theorem evict_suffix (items : List CacheItem) : evict limit items <:+ items := by
  induction items with
  | nil => exact suffix_rfl
  | cons oldest newer ih =>
    rw [evict]
    split
    · exact ih.trans (suffix_cons oldest newer)
    · exact suffix_rfl

/-- The newest items that fit. -/
def fitting (limit : Int) (items : List CacheItem) : List CacheItem := (evict limit items.reverse).reverse

theorem fitting_newest (items : List CacheItem) : fitting limit items <+: items := by
  rw [fitting, ← reverse_suffix, reverse_reverse]
  exact evict_suffix limit items.reverse

def delete (key : Bytes) : ObjectCache :=
  { c with lruList := without key c.lruList, distinct := c.distinct.filter _ }

/-- `Get`: an expired item is dropped, and one that is found moves to the front. -/
def get (now : Nat) (c : ObjectCache) (key : Bytes) : Option Bytes × ObjectCache :=
  match c.items key with
  | none => (none, c)
  | some item =>
    if (now : Int) - item.createdAt > c.ttl then (none, c.delete key)
    else (some item.value,
      { c with
        lruList := ⟨key, item.value, item.createdAt⟩ :: without key c.lruList
        distinct := pairwise_cons.mpr ⟨without_apart key _, c.distinct.filter _⟩ })

/-- `Set`: the old item goes, then the oldest ones until the new one fits or is
alone. -/
def set (now : Nat) (c : ObjectCache) (key value : Bytes) : ObjectCache :=
  let room := c.maxBytes - value.length
  { c with
    lruList := ⟨key, value, now⟩ :: fitting room (without key c.lruList)
    distinct := pairwise_cons.mpr
      ⟨fun item kept => without_apart key _ item ((fitting_newest room _).subset kept),
        (c.distinct.filter _).sublist (fitting_newest room _).sublist⟩ }

/-! ### What a key is found under -/

theorem items_set (value : Bytes) : (c.set now key value).items key = some ⟨key, value, now⟩ := by
  simp [items, set]

theorem items_delete : (c.delete key).items key = none := by
  rw [items, List.find?_eq_none]
  intro item kept same
  have found : item.key = key := of_decide_eq_true same
  exact without_apart key _ item kept found.symm

/-- What is found is an item that has not expired. -/
theorem get_eq_some_iff {now : Nat} {c : ObjectCache} {key value : Bytes} : (c.get now key).1 = some value ↔
    ∃ item, c.items key = some item ∧ (now : Int) - item.createdAt ≤ c.ttl ∧ item.value = value := by
  unfold get
  cases c.items key with
  | none => simp
  | some item =>
    simp only [Option.some.injEq, exists_eq_left']
    split
    · next expired => simp [Int.not_le.mpr expired]
    · next live => simp [Int.not_lt.mp live]

/-- A look-up brings nothing new under its key. -/
theorem get_keeps : (c.get now key).2.ttl = c.ttl ∧ ∀ item', (c.get now key).2.items key = some item' →
      ∃ item, c.items key = some item ∧ item.value = item'.value := by
  unfold get
  split
  · next absent =>
    refine ⟨rfl, fun item' held => ?_⟩
    rw [absent] at held
    cases held
  · next item held =>
    split
    · refine ⟨rfl, fun item' found => ?_⟩
      rw [items_delete] at found
      cases found
    · refine ⟨rfl, fun item' found => ⟨item, held, ?_⟩⟩
      simp only [items, List.find?_cons, decide_true] at found
      cases found
      rfl

end ObjectCache
end CipherLake.Gateway
