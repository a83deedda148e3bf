import Vwarp.Iputils.RandomIP
import Vwarp.Wiresocks.Scanner

/-!
# A random WARP endpoint

`RandomWarpEndpoint` takes a random prefix of WARP of an enabled family, a random address of it
and a random port.  No prefix of WARP covers the IPv4-mapped block, so the address is one of the
prefix that was chosen.
-/

namespace Vwarp.Warp

open Vwarp.Go Vwarp.Iputils Vwarp.Wiresocks

/-- `WarpPorts`. -/
def warpPorts : List UInt16 :=
  [500, 854, 859, 864, 878, 880, 890, 891, 894, 903, 908, 928, 934, 939, 942, 943, 945, 946, 955,
    968, 987, 988, 1002, 1010, 1014, 1018, 1070, 1074, 1180, 1387, 1701, 1843, 2371, 2408, 2506,
    3138, 3476, 3581, 3854, 4177, 4198, 4233, 4500, 5279, 5956, 7103, 7152, 7156, 7281, 7559, 8319,
    8742, 8854, 8886]

/-- `slice[rng.Intn(len(slice))]`, with the number that the generator gives. -/
def pick {α : Type} (l : List α) (number : Nat) : Option α := l[number % l.length]?

def enabledFamily (v4 v6 : Bool) (cidr : Prefix) : Bool :=
  v4 && cidr.addr.is4 || v6 && cidr.addr.is6

/-- `RandomWarpPrefix`, with the numbers for the rounds of its loop; `none` is a loop that has not
ended, or the panic if no family is enabled. -/
def randomWarpPrefix (v4 v6 : Bool) : List Nat → Option Prefix
  | [] => none
  | number :: numbers =>
    (pick warpPrefixes number).bind fun cidr ↦
      if enabledFamily v4 v6 cidr then some cidr else randomWarpPrefix v4 v6 numbers

/-- `RandomWarpPort`. -/
def randomWarpPort (number : Nat) : UInt16 := (pick warpPorts number).getD 0

/-- `RandomWarpEndpoint`, with the random numbers of its three parts. -/
def randomWarpEndpoint (v4 v6 : Bool) (numbers : List Nat) (randInt port : Nat) :
    Option (Except Bytes AddrPort) :=
  (randomWarpPrefix v4 v6 numbers).bind fun cidr ↦
    (randomIPFromPrefix cidr (randInt % randMax cidr)).map fun res ↦
      res.map fun randomIP ↦ ⟨randomIP, randomWarpPort port⟩

theorem mem_of_pick {α : Type} {l : List α} {number : Nat} {a : α} (h : pick l number = some a) :
    a ∈ l :=
  List.mem_of_getElem? h

theorem exists_pick {α : Type} {l : List α} (hl : l ≠ []) (number : Nat) :
    ∃ a, pick l number = some a :=
  ⟨_, List.getElem?_eq_getElem (Nat.mod_lt _ (List.length_pos_iff.mpr hl))⟩

theorem randomWarpPrefix_spec {v4 v6 : Bool} {numbers : List Nat} {cidr : Prefix}
    (h : randomWarpPrefix v4 v6 numbers = some cidr) :
    cidr ∈ warpPrefixes ∧ enabledFamily v4 v6 cidr = true := by
  induction numbers with
  | nil => exact absurd h (by simp [randomWarpPrefix])
  | cons number numbers ih =>
    obtain ⟨p, hp, h⟩ := Option.bind_eq_some_iff.mp h
    split_ifs at h with henabled
    · cases h
      exact ⟨mem_of_pick hp, henabled⟩
    · exact ih h

theorem accepted_warpPrefix {cidr : Prefix} (h : cidr ∈ warpPrefixes) :
    Accepted cidr ∧ cidr.contains firstMapped = false := by
  have hall : warpPrefixes.all (fun p ↦ p.isValid && !(startingAddress p).is4In6 &&
      !p.contains firstMapped) = true := by decide +kernel
  have hp := List.all_eq_true.mp hall cidr h
  simp only [Bool.and_eq_true, Bool.not_eq_true'] at hp
  exact ⟨⟨hp.1.1, hp.1.2⟩, hp.2⟩

/-- Once a prefix is chosen, `RandomWarpEndpoint` returns an endpoint: its address is in a prefix
of WARP of an enabled family, and its port is one of WARP. -/
theorem randomWarpEndpoint_spec {v4 v6 : Bool} {numbers : List Nat} {cidr : Prefix}
    (h : randomWarpPrefix v4 v6 numbers = some cidr) (randInt port : Nat) :
    ∃ endpoint, randomWarpEndpoint v4 v6 numbers randInt port = some (.ok endpoint) ∧
      cidr ∈ warpPrefixes ∧ enabledFamily v4 v6 cidr = true ∧
      cidr.contains endpoint.addr = true ∧ endpoint.port ∈ warpPorts := by
  obtain ⟨hmem, henabled⟩ := randomWarpPrefix_spec h
  obtain ⟨haccepted, hmapped⟩ := accepted_warpPrefix hmem
  have hr : randInt % randMax cidr < randMax cidr := Nat.mod_lt _ (Nat.two_pow_pos _)
  obtain ⟨ip, hip, hcontains⟩ := haccepted.contains_random hmapped hr
  obtain ⟨p, hp⟩ := exists_pick (l := warpPorts) (by decide) port
  refine ⟨⟨ip, p⟩, ?_, hmem, henabled, hcontains, mem_of_pick hp⟩
  rw [randomWarpEndpoint, h, Option.bind_some, hip, randomWarpPort, hp]
  rfl

theorem randomWarpEndpoint_first :
    ∃ endpoint, randomWarpEndpoint true false [0] 5 0 = some (.ok endpoint) ∧
      endpoint.port ∈ warpPorts := by
  have hprefix : randomWarpPrefix true false [0] = some _ := rfl
  obtain ⟨endpoint, hok, -, -, -, hport⟩ := randomWarpEndpoint_spec hprefix 5 0
  exact ⟨endpoint, hok, hport⟩

end Vwarp.Warp
