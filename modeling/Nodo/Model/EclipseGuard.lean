import Mathlib.Algebra.Order.Floor.Semiring
import Mathlib.Algebra.Order.Field.Rat
import Mathlib.Data.Rat.Floor
import Nodo.Model.PeerRegistry

/-!
# Nodo — the guard against eclipse attacks

`p2p/EclipseGuard.cpp`: whether a candidate may join the current peers. The guard counts
the peers of the candidate's /24 subnet and all of them; with enough peers it also bounds
the fraction that one subnet has. The fraction is a double, so it is a rational number and
a quotient is rounded.

## Results

* `checkAdmission_allowed` — an allowed candidate finds room in its subnet and in all.
-/

namespace Nodo.Model

--
-- Doubles
--

namespace Double

/-- The exponent of the highest bit of a positive number. -/
def exponent (value : ℚ) : ℤ :=
  if value.den ≤ value.num.natAbs then (value.num.natAbs / value.den).log2
  else -(((value.den - 1) / value.num.natAbs).log2 + 1)

/-- The nearest whole number, the even one of two. -/
def roundHalfEven (value : ℚ) : ℤ :=
  let lower := ⌊value⌋
  if value - lower < 1 / 2 then lower
  else if 1 / 2 < value - lower then lower + 1
  else if lower % 2 = 0 then lower
  else lower + 1

/-- The double nearest to a positive number of a magnitude that doubles have. -/
def round (value : ℚ) : ℚ :=
  let unit : ℚ := 2 ^ (exponent value - 52)
  roundHalfEven (value / unit) * unit

/-- `static_cast<double>` of a size. -/
def ofSize (size : Nat) : ℚ := if size = 0 then 0 else round size

def div (a b : ℚ) : ℚ := if a = 0 then 0 else round (a / b)

end Double

--
-- Subnets
--

structure PeerSubnetInfo where
  peerId : String
  ipAddress : String
  subnetPrefix : String
  port : Nat
  deriving DecidableEq, Repr

namespace PeerSubnetInfo

/-- The loop of `extractSubnetPrefix` over the characters: the parts between the dots, or
`none` where it gives up. -/
def splitOctets (parts : List (List Char)) (current : List Char) :
    List Char → Option (List (List Char))
  | [] => some (if current.isEmpty then parts else parts ++ [current])
  | c :: rest =>
    if c = '.' then
      if current.isEmpty then none else splitOctets (parts ++ [current]) [] rest
    else if '0' ≤ c && c ≤ '9' then splitOctets parts (current ++ [c]) rest
    else if c = ':' then some (if current.isEmpty then parts else parts ++ [current])
    else none

/-- `std::stoi` of digits. -/
def octetValue (part : List Char) : Nat :=
  part.foldl (fun value c => value * 10 + (c.toNat - '0'.toNat)) 0

/-- `extractSubnetPrefix`: the first three octets of an IPv4 address, or nothing. -/
def extractSubnetPrefix (ip : String) : String :=
  match splitOctets [] [] ip.toList with
  | some [a, b, c, d] =>
    if [a, b, c, d].any (fun part => part.isEmpty || 3 < part.length || 255 < octetValue part) then ""
    else toString (octetValue a) ++ "." ++ toString (octetValue b) ++ "." ++ toString (octetValue c)
  | _ => ""

def isValid (info : PeerSubnetInfo) : Bool :=
  !info.peerId.isEmpty && !info.ipAddress.isEmpty && !info.subnetPrefix.isEmpty

end PeerSubnetInfo

--
-- The guard
--

structure EclipseGuardConfig where
  maxPeersPerSubnet : Nat
  maxTotalPeers : Nat
  minSubnetDiversity : Nat
  maxSingleSubnetFraction : ℚ
  deriving DecidableEq

namespace EclipseGuardConfig

def defaults : EclipseGuardConfig := ⟨2, 50, 8, 1 / 4⟩

def isValid (config : EclipseGuardConfig) : Bool :=
  1 ≤ config.maxPeersPerSubnet && config.maxPeersPerSubnet ≤ config.maxTotalPeers
    && 1 ≤ config.minSubnetDiversity && 0 < config.maxSingleSubnetFraction
    && config.maxSingleSubnetFraction ≤ 1

end EclipseGuardConfig

inductive EclipseCheckOutcome
  | allowed
  | rejectedSubnetSaturated
  | rejectedDiversityInsufficient
  | rejectedCapacityFull
  deriving DecidableEq, Repr

structure EclipseCheckResult where
  outcome : EclipseCheckOutcome
  detail : String
  deriving DecidableEq, Repr

def EclipseCheckResult.isAllowed (result : EclipseCheckResult) : Bool := result.outcome == .allowed

namespace EclipseGuard

/-- `subnetCounts` at one prefix; zero where the map has no entry. -/
def subnetCount (peers : List PeerSubnetInfo) (subnetPrefix : String) : Nat :=
  peers.countP (·.subnetPrefix == subnetPrefix)

def minPeersForFractionCheck (config : EclipseGuardConfig) : Nat :=
  if 0 < config.maxSingleSubnetFraction then ⌊Double.div 1 config.maxSingleSubnetFraction⌋₊
  else config.maxTotalPeers

/-- `EclipseGuard::checkAdmission`; the text of the fraction in the last detail is left
out. -/
def checkAdmission (config : EclipseGuardConfig) (candidate : PeerSubnetInfo)
    (currentPeers : List PeerSubnetInfo) : EclipseCheckResult :=
  let count := subnetCount currentPeers candidate.subnetPrefix
  if config.maxTotalPeers ≤ currentPeers.length then
    ⟨.rejectedCapacityFull, "Total peer capacity reached: " ++ toString config.maxTotalPeers⟩
  else if 0 < count && config.maxPeersPerSubnet ≤ count then
    ⟨.rejectedSubnetSaturated, "Subnet " ++ candidate.subnetPrefix ++ " already has " ++
      toString count ++ " peers (max " ++ toString config.maxPeersPerSubnet ++ ")"⟩
  else if minPeersForFractionCheck config ≤ currentPeers.length + 1
      && config.maxSingleSubnetFraction <
        Double.div (Double.ofSize (count + 1)) (Double.ofSize (currentPeers.length + 1)) then
    ⟨.rejectedDiversityInsufficient, "Adding peer from subnet " ++ candidate.subnetPrefix ++
      " would exceed max fraction "⟩
  else ⟨.allowed, ""⟩

/-- An allowed candidate finds room in its subnet and in all. -/
theorem checkAdmission_allowed {config : EclipseGuardConfig} {candidate : PeerSubnetInfo}
    {currentPeers : List PeerSubnetInfo} (hconfig : config.isValid = true)
    (h : (checkAdmission config candidate currentPeers).isAllowed = true) :
    subnetCount currentPeers candidate.subnetPrefix < config.maxPeersPerSubnet ∧
      currentPeers.length < config.maxTotalPeers := by
  unfold checkAdmission at h
  dsimp only at h
  split at h
  · exact nomatch h
  rename_i htotal
  split at h
  · exact nomatch h
  rename_i hsubnet
  simp only [EclipseGuardConfig.isValid, Bool.and_eq_true, decide_eq_true_eq] at hconfig hsubnet
  omega

end EclipseGuard

end Nodo.Model
