import Neptun.Noise.Network

/-! The tables of allowed IPs. `AllowedIps` keeps a value per IP network in an
`IpNetworkTable` of the `ip_network_table` crate, whose operations `N` are a
parameter (`Noise.Network`); the table is given by its entries. -/
namespace Neptun.Device

open Lib Noise

/-- `AllowedIps`: the entries of its `IpNetworkTable`. -/
structure AllowedIps (α : Type) where
  ips : List (IpNetwork × α)

/-- `AllowedIP`: an address and a prefix length. -/
structure AllowedIP where
  addr : IpAddr
  cidr : UInt8
  deriving DecidableEq, Repr

namespace AllowedIps

variable {α : Type} (N : IpNetworkTable)

def new : AllowedIps α := ⟨[]⟩

def clear (_ : AllowedIps α) : AllowedIps α := new

/-- `insert`: nothing is inserted for a prefix longer than the address. -/
def insert (t : AllowedIps α) (key : IpAddr) (cidr : UInt8) (data : α) : AllowedIps α × Option α :=
  match IpNetwork.newTruncate key cidr with
  | some n => (⟨(N.insert t.ips n data).1⟩, (N.insert t.ips n data).2)
  | none => (t, none)

def find (t : AllowedIps α) (key : IpAddr) : Option α := (N.longestMatch t.ips key).map (·.2)

def remove (t : AllowedIps α) (predicate : α → Bool) : AllowedIps α :=
  ⟨N.retain t.ips fun _ v => !predicate v⟩

/-- The networks `ips` inserted in turn, each with `data`, as the loops over a
slice of `AllowedIP`s do. -/
def insertAll (t : AllowedIps α) (ips : List AllowedIP) (data : α) : AllowedIps α :=
  ips.foldl (fun t ip => (t.insert N ip.addr ip.cidr data).1) t

/-- The table of the given networks, each with `data`, as `collect` builds it. -/
def ofList (ips : List AllowedIP) (data : α) : AllowedIps α :=
  ips.foldl (fun t ip => (t.insert N ip.addr ip.cidr data).1) new

section Laws

/-! What the operations of `AllowedIps` do, from the laws of the table. -/

variable {N} (hN : N.Lawful)
include hN

theorem mem_insert_iff {t : AllowedIps α} {key : IpAddr} {cidr : UInt8} {n : IpNetwork}
    (hn : IpNetwork.newTruncate key cidr = some n) (v : α) (e : IpNetwork × α) :
    e ∈ (t.insert N key cidr v).1.ips ↔ e = (n, v) ∨ e ∈ t.ips ∧ e.1 ≠ n := by
  simp only [insert, hn]
  exact hN.insert_replaces t.ips n v e

/-- An entry after `insert` is the one inserted or was there before. -/
theorem mem_insert {t : AllowedIps α} {key : IpAddr} {cidr : UInt8} {v : α} {e : IpNetwork × α}
    (he : e ∈ (t.insert N key cidr v).1.ips) : e.2 = v ∨ e ∈ t.ips := by
  cases hn : IpNetwork.newTruncate key cidr with
  | none =>
    simp only [insert, hn] at he
    exact .inr he
  | some n =>
    rcases (mem_insert_iff hN hn v e).mp he with rfl | ⟨he, -⟩
    · exact .inl rfl
    · exact .inr he

theorem mem_insertAll {v : α} {e : IpNetwork × α} (ips : List AllowedIP) :
    ∀ {t : AllowedIps α}, e ∈ (t.insertAll N ips v).ips → e.2 = v ∨ e ∈ t.ips := by
  induction ips with
  | nil => exact fun he => .inr he
  | cons ip ips ih =>
    intro t he
    rcases ih he with h | h
    · exact .inl h
    · exact mem_insert hN h

theorem mem_remove {t : AllowedIps α} {p : α → Bool} {e : IpNetwork × α}
    (he : e ∈ (t.remove N p).ips) : e ∈ t.ips ∧ p e.2 = false := by
  simpa [remove] using (hN.retain_filters t.ips _ e).mp he

/-- `find` gives the value of the longest network of the table that contains the
address. -/
theorem find_longest {t : AllowedIps α} {a : IpAddr} {v : α} (h : t.find N a = some v) :
    ∃ n, (n, v) ∈ t.ips ∧ n.contains a ∧ ∀ e ∈ t.ips, e.1.contains a → e.1.len ≤ n.len := by
  obtain ⟨e, he, rfl⟩ := Option.map_eq_some_iff.mp h
  exact ⟨e.1, hN.longestMatch_some t.ips a e he⟩

/-- A network of the table that contains the address gives `find` a value. -/
theorem find_isSome {t : AllowedIps α} {a : IpAddr} {e : IpNetwork × α} (he : e ∈ t.ips)
    (hc : e.1.contains a = true) : (t.find N a).isSome := by
  cases hl : N.longestMatch t.ips a with
  | none => exact absurd (hN.longestMatch_none t.ips a hl e he) (by simp [hc])
  | some e' => simp [find, hl]

/-- With one entry for the networks that contain the address, `find` gives its value. -/
theorem find_eq_of_only {t : AllowedIps α} {a : IpAddr} {n : IpNetwork} {v : α}
    (he : (n, v) ∈ t.ips) (hc : n.contains a = true)
    (honly : ∀ e ∈ t.ips, e.1.contains a = true → e = (n, v)) : t.find N a = some v := by
  obtain ⟨v', hv'⟩ := Option.isSome_iff_exists.mp (find_isSome hN he hc)
  obtain ⟨n', hmem, hc', -⟩ := find_longest hN hv'
  rw [hv', (Prod.mk.inj (honly _ hmem hc')).2]

end Laws

end AllowedIps

end Neptun.Device
