import Neptun.Noise.Types

/-! IP networks and the table the device keeps its routes in. An `IpNetwork` of
the `ip_network` crate is its family, its prefix length and the bits of the address
above the prefix, as `IpNetwork::new_truncate` keeps them. The table is
`IpNetworkTable` of the `ip_network_table` crate, which is not part of this
repository: its operations are a parameter of the model, over the entries a table
holds in the order its `iter` yields them, and `IpNetworkTable.Lawful` states what
the proofs assume of them, as the crate documents it. `IpNetworkTable.linear`, a
table that scans its entries, meets those laws. -/
namespace Neptun.Noise

open Lib

namespace IpAddr

def isV6 : IpAddr → Bool
  | .v4 _ => false
  | .v6 _ => true

def width (a : IpAddr) : Nat := if a.isV6 then 128 else 32

def toNat : IpAddr → Nat
  | .v4 octets => ofBeBytes octets.toList
  | .v6 octets => ofBeBytes octets.toList

end IpAddr

structure IpNetwork where
  v6 : Bool
  len : Nat
  bits : Nat
  deriving DecidableEq, Repr

namespace IpNetwork

/-- `IpNetwork::new_truncate`: the host bits are dropped; a prefix longer than the
address is an error. -/
def newTruncate (addr : IpAddr) (netmask : UInt8) : Option IpNetwork :=
  if netmask.toNat ≤ addr.width then
    some ⟨addr.isV6, netmask.toNat, addr.toNat >>> (addr.width - netmask.toNat)⟩
  else none

def contains (n : IpNetwork) (a : IpAddr) : Bool :=
  n.v6 == a.isV6 && a.toNat >>> (a.width - n.len) == n.bits

/-- `network_address`: the prefix of the network, then zeros. -/
def networkAddress (n : IpNetwork) : IpAddr :=
  if n.v6 then .v6 ⟨(beBytes 16 (n.bits <<< (128 - n.len))).toArray, by simp⟩
  else .v4 ⟨(beBytes 4 (n.bits <<< (32 - n.len))).toArray, by simp⟩

end IpNetwork

/-- The operations of `IpNetworkTable<T>` that `AllowedIps` calls, on a table given
by its entries. `IpNetworkTable::new()` is the table without entries. -/
structure IpNetworkTable where
  /-- `insert`: the table with the value of the network set, and the value it had -/
  insert : {α : Type} → List (IpNetwork × α) → IpNetwork → α → List (IpNetwork × α) × Option α
  /-- `longest_match` -/
  longestMatch : {α : Type} → List (IpNetwork × α) → IpAddr → Option (IpNetwork × α)
  /-- `retain` -/
  retain : {α : Type} → List (IpNetwork × α) → (IpNetwork → α → Bool) → List (IpNetwork × α)

/-- What the proofs assume of the table, as the crate documents it: `insert`
replaces the value of an equal network, `retain` keeps the entries its predicate
holds of, and `longest_match` returns the entry of the longest network that contains
the address, or nothing when no network does. -/
structure IpNetworkTable.Lawful (N : IpNetworkTable) : Prop where
  insert_replaces : ∀ {α : Type} (es : List (IpNetwork × α)) (n : IpNetwork) (v : α) e,
    e ∈ (N.insert es n v).1 ↔ e = (n, v) ∨ e ∈ es ∧ e.1 ≠ n
  retain_filters : ∀ {α : Type} (es : List (IpNetwork × α)) (keep : IpNetwork → α → Bool) e,
    e ∈ N.retain es keep ↔ e ∈ es ∧ keep e.1 e.2 = true
  longestMatch_some : ∀ {α : Type} (es : List (IpNetwork × α)) (a : IpAddr) e,
    N.longestMatch es a = some e →
      e ∈ es ∧ e.1.contains a = true ∧ ∀ e' ∈ es, e'.1.contains a = true → e'.1.len ≤ e.1.len
  longestMatch_none : ∀ {α : Type} (es : List (IpNetwork × α)) (a : IpAddr),
    N.longestMatch es a = none → ∀ e ∈ es, e.1.contains a = false

namespace IpNetworkTable

/-! ### A table that scans its entries -/

section Linear

variable {α : Type}

/-- `insert` of a table that keeps its entries in the order they were added: an
equal network has its value replaced in place, a new one goes at the end. -/
def linearInsert (es : List (IpNetwork × α)) (n : IpNetwork) (d : α) :
    List (IpNetwork × α) × Option α :=
  match es.find? (·.1 = n) with
  | some old => (es.map fun e => if e.1 = n then (n, d) else e, some old.2)
  | none => (es ++ [(n, d)], none)

/-- `longest_match` by one pass over the entries, keeping the longest network that
contains `a` seen so far. -/
def linearLongestMatch (es : List (IpNetwork × α)) (a : IpAddr) : Option (IpNetwork × α) :=
  es.foldl
    (fun best e => if e.1.contains a && best.all (·.1.len < e.1.len) then some e else best) none

def linear : IpNetworkTable where
  insert := linearInsert
  longestMatch := linearLongestMatch
  retain es keep := es.filter fun e => keep e.1 e.2

theorem linearInsert_mem (es : List (IpNetwork × α)) (n : IpNetwork) (v : α) (e : IpNetwork × α) :
    e ∈ (linearInsert es n v).1 ↔ e = (n, v) ∨ e ∈ es ∧ e.1 ≠ n := by
  unfold linearInsert
  split
  · rename_i old hold
    have hn : old.1 = n := by simpa using List.find?_some hold
    -- the entries of network `n` all become `(n, v)`; there is one, `old`
    constructor
    · intro he
      obtain ⟨e', he', rfl⟩ := List.mem_map.mp he
      split
      · exact .inl rfl
      · exact .inr ⟨he', by assumption⟩
    · rintro (rfl | ⟨he, hne⟩)
      · exact List.mem_map.mpr ⟨old, List.mem_of_find?_eq_some hold, by simp [hn]⟩
      · exact List.mem_map.mpr ⟨e, he, by simp [hne]⟩
  · rename_i hnone
    have hno : ∀ e ∈ es, e.1 ≠ n := fun e he h => by simpa [h] using List.find?_eq_none.mp hnone e he
    constructor
    · intro he
      rcases List.mem_append.mp he with he | he
      · exact .inr ⟨he, hno e he⟩
      · exact .inl (List.mem_singleton.mp he)
    · rintro (rfl | ⟨he, -⟩)
      · exact List.mem_append_right _ (List.mem_singleton_self _)
      · exact List.mem_append_left _ he

/-- What `longest_match` returns, for the entries `ps` it has gone through: the
entry of the longest network that contains `a`, or nothing if none does. -/
def Longest (a : IpAddr) (ps : List (IpNetwork × α)) : Option (IpNetwork × α) → Prop
  | some e => e ∈ ps ∧ e.1.contains a ∧ ∀ e' ∈ ps, e'.1.contains a → e'.1.len ≤ e.1.len
  | none => ∀ e ∈ ps, e.1.contains a = false

theorem longest_step {a : IpAddr} {ps : List (IpNetwork × α)} {best : Option (IpNetwork × α)}
    (h : Longest a ps best) (e : IpNetwork × α) :
    Longest a (ps ++ [e])
      (if e.1.contains a && best.all (·.1.len < e.1.len) then some e else best) := by
  split
  · rename_i hnew
    simp only [Bool.and_eq_true, Option.all_eq_true] at hnew
    refine ⟨by simp, hnew.1, fun e' he' hc => ?_⟩
    rcases List.mem_append.mp he' with he' | he'
    · -- an earlier containing network is at most as long as `best`, which is shorter
      cases best with
      | none => exact absurd (h e' he') (by simp [hc])
      | some b => exact Nat.le_of_lt (Nat.lt_of_le_of_lt (h.2.2 e' he' hc) (of_decide_eq_true (hnew.2 b rfl)))
    · rw [List.mem_singleton.mp he']
  · rename_i hkeep
    cases best with
    | none =>
      intro e' he'
      rcases List.mem_append.mp he' with he' | he'
      · exact h e' he'
      · rw [List.mem_singleton.mp he']
        simpa using hkeep
    | some b =>
      refine ⟨List.mem_append_left _ h.1, h.2.1, fun e' he' hc => ?_⟩
      rcases List.mem_append.mp he' with he' | he'
      · exact h.2.2 e' he' hc
      · rw [List.mem_singleton.mp he'] at hc ⊢
        simp only [hc, Bool.true_and, Option.all_some, decide_eq_true_eq] at hkeep
        omega

theorem linearLongestMatch_spec (es : List (IpNetwork × α)) (a : IpAddr) :
    Longest a es (linearLongestMatch es a) := by
  -- the fold keeps `Longest` of the entries it has gone through
  suffices h : ∀ (es ps : List (IpNetwork × α)) (best : Option (IpNetwork × α)),
      Longest a ps best → Longest a (ps ++ es)
        (es.foldl (fun best e =>
          if e.1.contains a && best.all (·.1.len < e.1.len) then some e else best) best) by
    exact h es [] none (fun _ h => absurd h List.not_mem_nil)
  intro es
  induction es with
  | nil => simp
  | cons e es ih =>
    intro ps best h
    rw [List.foldl_cons, ← List.singleton_append, ← List.append_assoc]
    exact ih _ _ (longest_step h e)

end Linear

theorem linear_lawful : linear.Lawful where
  insert_replaces := linearInsert_mem
  retain_filters es keep e := by simp [linear]
  longestMatch_some es a e h := by
    have hspec := linearLongestMatch_spec es a
    simp only [linear] at h
    rw [h] at hspec
    exact hspec
  longestMatch_none es a h := by
    have hspec := linearLongestMatch_spec es a
    simp only [linear] at h
    rw [h] at hspec
    exact hspec

end IpNetworkTable

end Neptun.Noise
