-- SUMMARY: IP addresses with the parser of `std::net`, and that IPv4 addresses read back as written.
import ApmeWebMash.Base.Numeral

/-! # IP addresses

The textual forms of `std::net::IpAddr` and the address classes that the program
asks for. The parser tries the two families in turn and takes no prefix: an IPv4
address is four decimal numbers without leading zeros, and an IPv6 address is
groups of hexadecimal digits, with at most one gap. -/

/-- `Ipv4Addr`: four octets. -/
structure Ipv4 where
  a : UInt8
  b : UInt8
  c : UInt8
  d : UInt8
deriving DecidableEq

/-- `Ipv6Addr`: 128 bits. -/
abbrev Ipv6 := BitVec 128

inductive IpAddr where
  | v4 (address : Ipv4)
  | v6 (address : Ipv6)
deriving DecidableEq

namespace Ipv4

/-- 127.0.0.0/8. -/
def isLoopback (address : Ipv4) : Bool := address.a == 127

/-- 10.0.0.0/8, 172.16.0.0/12 and 192.168.0.0/16. -/
def isPrivate (address : Ipv4) : Bool :=
  address.a == 10 || (address.a == 172 && 16 ≤ address.b && address.b ≤ 31) ||
    (address.a == 192 && address.b == 168)

/-- 169.254.0.0/16. -/
def isLinkLocal (address : Ipv4) : Bool := address.a == 169 && address.b == 254

/-- `Display`. -/
def display (address : Ipv4) : Str :=
  Numeral.decimal address.a.toNat ++ '.' :: (Numeral.decimal address.b.toNat ++
    '.' :: (Numeral.decimal address.c.toNat ++ '.' :: Numeral.decimal address.d.toNat))

end Ipv4

namespace Ipv6

/-- ::1. -/
def isLoopback (address : Ipv6) : Bool := address = 1

/-- `segments()[0]`. -/
def firstSegment (address : Ipv6) : BitVec 16 := address.extractLsb' 112 16

/-- The address with these groups of 16 bits. -/
def ofGroups (groups : List Nat) : Ipv6 :=
  BitVec.ofNat 128 (groups.foldl (fun acc group => acc * 2 ^ 16 + group) 0)

end Ipv6

namespace IpAddr

/-! ## Parsing -/

/-- `read_number`: at most so many digits, and a value within the bound. -/
def readNumber (radix maxDigits max : Nat) (allowZero : Bool) (s : Str) : Option (Nat × Str) :=
  let digits := s.takeWhile fun c => (Numeral.toDigit radix c).isSome
  let n := Numeral.digitsValue radix 0 digits
  if digits = [] || maxDigits < digits.length || max < n ||
      (!allowZero && digits.head? = some '0' && 1 < digits.length) then none
  else some (n, s.drop digits.length)

/-- `read_given_char`. -/
def readChar (c : Char) : Str → Option Str
  | [] => none
  | d :: s => if d = c then some s else none

/-- An octet of an IPv4 address. -/
def readOctet (s : Str) : Option (UInt8 × Str) :=
  (readNumber 10 3 255 false s).map fun (n, s) => (UInt8.ofNat n, s)

/-- `read_ipv4_addr`. -/
def readIpv4 (s : Str) : Option (Ipv4 × Str) := do
  let (a, s) ← readOctet s
  let (b, s) ← readOctet (← readChar '.' s)
  let (c, s) ← readOctet (← readChar '.' s)
  let (d, s) ← readOctet (← readChar '.' s)
  some (⟨a, b, c, d⟩, s)

/-- `read_groups`: up to so many groups, whether an IPv4 address ended them, and
    the rest. -/
def readGroups : Nat → Bool → Str → List Nat × Bool × Str
  | 0, _, s => ([], false, s)
  | n + 1, first, s =>
    let behind := if first then some s else readChar ':' s
    match (if n = 0 then none else behind.bind readIpv4), behind.bind (readNumber 16 4 0xffff true) with
    | some (address, rest), _ =>
      ([address.a.toNat * 256 + address.b.toNat, address.c.toNat * 256 + address.d.toNat], true,
        rest)
    | none, some (group, rest) =>
      let (groups, ended, rest) := readGroups n false rest
      (group :: groups, ended, rest)
    | none, none => ([], false, s)

/-- `read_ipv6_addr`. -/
def readIpv6 (s : Str) : Option (Ipv6 × Str) :=
  let (head, ended, s) := readGroups 8 true s
  if head.length = 8 then some (Ipv6.ofGroups head, s)
  else if ended then none
  else do
    let s ← readChar ':' (← readChar ':' s)
    let (tail, _, s) := readGroups (7 - head.length) true s
    some (Ipv6.ofGroups (head ++ List.replicate (8 - head.length - tail.length) 0 ++ tail), s)

/-- `str::parse::<IpAddr>`, up to the error. -/
def parse (s : Str) : Option IpAddr :=
  match readIpv4 s with
  | some (address, rest) => if rest = [] then some (.v4 address) else none
  | none =>
    match readIpv6 s with
    | some (address, rest) => if rest = [] then some (.v6 address) else none
    | none => none

/-! ## Socket addresses -/

/-- `SocketAddr`, without its flow information. -/
structure SocketAddr where
  ip : IpAddr
  scopeId : Nat
  port : Nat
deriving DecidableEq

/-- `read_port`. -/
def readPort (s : Str) : Option (Nat × Str) := do
  let s ← readChar ':' s
  readNumber 10 s.length 0xffff true s

/-- `read_scope_id`. -/
def readScopeId (s : Str) : Option (Nat × Str) := do
  let s ← readChar '%' s
  readNumber 10 s.length 0xffffffff true s

/-- `read_socket_addr_v4`. -/
def readSocketAddrV4 (s : Str) : Option (SocketAddr × Str) := do
  let (address, s) ← readIpv4 s
  let (port, s) ← readPort s
  some (⟨.v4 address, 0, port⟩, s)

/-- `read_socket_addr_v6`. -/
def readSocketAddrV6 (s : Str) : Option (SocketAddr × Str) := do
  let (address, s) ← readIpv6 (← readChar '[' s)
  let (scopeId, s) := (readScopeId s).getD (0, s)
  let (port, s) ← readPort (← readChar ']' s)
  some (⟨.v6 address, scopeId, port⟩, s)

/-- `str::parse::<SocketAddr>`, up to the error. -/
def parseSocketAddr (s : Str) : Option SocketAddr :=
  match (readSocketAddrV4 s).or (readSocketAddrV6 s) with
  | some (address, rest) => if rest = [] then some address else none
  | none => none

/-! ## IPv4 addresses -/

/-- A decimal octet is read up to what is no digit. -/
theorem readOctet_decimal (octet : UInt8) {rest : Str}
    (h : ∀ c s, rest = c :: s → Numeral.toDigit 10 c = none) :
    readOctet (Numeral.decimal octet.toNat ++ rest) = some (octet, rest) := by
  have hwrites := Numeral.writes_decimal octet.toNat
  have hdigits : (Numeral.decimal octet.toNat ++ rest).takeWhile
      (fun c => (Numeral.toDigit 10 c).isSome) = Numeral.decimal octet.toNat := by
    rw [List.takeWhile_append_of_pos hwrites.digits]
    cases rest with
    | nil => simp
    | cons c s => simp [h c s rfl]
  have hlength : (Numeral.decimal octet.toNat).length ≤ 3 :=
    Numeral.length_decimal_le (by decide) (octet.toNat_lt.trans (by decide))
  have hzero : ∀ n : Fin 256, (Numeral.decimal n.val).head? = some '0' →
      ¬ 1 < (Numeral.decimal n.val).length := by decide +kernel
  have hlead := hzero ⟨octet.toNat, octet.toNat_lt⟩
  have hmax : ¬ 255 < octet.toNat := Nat.not_lt.mpr (Nat.le_of_lt_succ octet.toNat_lt)
  have hnumber : readNumber 10 3 255 false (Numeral.decimal octet.toNat ++ rest) =
      some (octet.toNat, rest) := by
    simp only [readNumber, hdigits, hwrites.value, List.drop_left]
    refine if_neg ?_
    simp only [Bool.or_eq_true, Bool.and_eq_true, decide_eq_true_eq, not_or, not_and]
    exact ⟨⟨⟨hwrites.ne_nil, Nat.not_lt.mpr hlength⟩, hmax⟩, fun hhead => hlead hhead.2⟩
  rw [readOctet, hnumber, Option.map_some]
  dsimp only
  rw [UInt8.ofNat_toNat]

/-- An IPv4 address reads back as written. -/
theorem parse_display (address : Ipv4) : parse address.display = some (.v4 address) := by
  have hdot : ∀ t c s, '.' :: t = c :: s → Numeral.toDigit 10 c = none := by
    intro t c s heq
    rw [← (List.cons.inj heq).1]
    decide
  have hlast := @readOctet_decimal address.d [] (by simp)
  rw [List.append_nil] at hlast
  have hread : readIpv4 address.display = some (address, []) := by
    rw [readIpv4, Ipv4.display, readOctet_decimal _ (hdot _)]
    simp [readChar, readOctet_decimal _ (hdot _), hlast]
  rw [parse, hread]
  rfl

end IpAddr

/-! ## Networks -/

/-- An address of so many bits is in the network of the same prefix. -/
def InNetwork (bits length address network : Nat) : Prop :=
  address / 2 ^ (bits - length) = network / 2 ^ (bits - length)

instance (bits length address network : Nat) : Decidable (InNetwork bits length address network) :=
  inferInstanceAs (Decidable (_ = _))

namespace Ipv4

/-- The address as one number. -/
def toNat (address : Ipv4) : Nat :=
  address.a.toNat * 2 ^ 24 + address.b.toNat * 2 ^ 16 + address.c.toNat * 2 ^ 8 + address.d.toNat

/-- The network `network/length`. -/
def In (address network : Ipv4) (length : Nat) : Prop :=
  InNetwork 32 length address.toNat network.toNat

theorem octets_lt (address : Ipv4) : address.a.toNat < 256 ∧ address.b.toNat < 256 ∧
    address.c.toNat < 256 ∧ address.d.toNat < 256 :=
  ⟨address.a.toNat_lt, address.b.toNat_lt, address.c.toNat_lt, address.d.toNat_lt⟩

theorem isLoopback_iff {address : Ipv4} : address.isLoopback ↔ address.In ⟨127, 0, 0, 0⟩ 8 := by
  obtain ⟨ha, hb, hc, hd⟩ := address.octets_lt
  rw [isLoopback, beq_iff_eq, ← UInt8.toNat_inj]
  simp only [In, InNetwork, toNat, UInt8.toNat_ofNat]
  omega

theorem isPrivate_iff {address : Ipv4} :
    address.isPrivate ↔ address.In ⟨10, 0, 0, 0⟩ 8 ∨ address.In ⟨172, 16, 0, 0⟩ 12 ∨
      address.In ⟨192, 168, 0, 0⟩ 16 := by
  obtain ⟨ha, hb, hc, hd⟩ := address.octets_lt
  simp only [isPrivate, Bool.or_eq_true, Bool.and_eq_true, beq_iff_eq, decide_eq_true_eq,
    ← UInt8.toNat_inj, UInt8.le_iff_toNat_le]
  simp only [In, InNetwork, toNat, UInt8.toNat_ofNat]
  omega

theorem isLinkLocal_iff {address : Ipv4} :
    address.isLinkLocal ↔ address.In ⟨169, 254, 0, 0⟩ 16 := by
  obtain ⟨ha, hb, hc, hd⟩ := address.octets_lt
  simp only [isLinkLocal, Bool.and_eq_true, beq_iff_eq, ← UInt8.toNat_inj]
  simp only [In, InNetwork, toNat, UInt8.toNat_ofNat]
  omega

end Ipv4

namespace Ipv6

/-- The network `network/length`. -/
def In (address network : Ipv6) (length : Nat) : Prop :=
  InNetwork 128 length address.toNat network.toNat

instance (address network : Ipv6) (length : Nat) : Decidable (address.In network length) :=
  inferInstanceAs (Decidable (InNetwork _ _ _ _))

theorem toNat_firstSegment (address : Ipv6) : (firstSegment address).toNat = address.toNat / 2 ^ 112 := by
  have hlt := address.isLt
  rw [firstSegment, BitVec.extractLsb'_toNat, Nat.shiftRight_eq_div_pow]
  exact Nat.mod_eq_of_lt (by omega)

/-- A mask of the first bits keeps what a division does not drop. -/
theorem and_mask {x k n : Nat} (h : x < 2 ^ (k + n)) :
    x &&& (2 ^ n - 1) <<< k = (x / 2 ^ k) <<< k := by
  have hquotient : x / 2 ^ k % 2 ^ n = x / 2 ^ k := by
    rw [Nat.pow_add] at h
    exact Nat.mod_eq_of_lt (Nat.div_lt_of_lt_mul h)
  have hand : x &&& (2 ^ n - 1) <<< k = ((x >>> k) &&& (2 ^ n - 1)) <<< k := by
    refine Nat.eq_of_testBit_eq fun i => ?_
    simp only [Nat.testBit_and, Nat.testBit_shiftLeft, Nat.testBit_shiftRight]
    by_cases hi : k ≤ i
    · simp [hi]
    · simp [hi]
  rw [hand, Nat.and_two_pow_sub_one_eq_mod, Nat.shiftRight_eq_div_pow, hquotient]

/-- A test of the first segment under a mask is one for a network. -/
theorem firstSegment_and_iff (address : Ipv6) {network : Ipv6} {length : Nat} {mask segment : BitVec 16}
    (hlength : length ≤ 16) (hmask : mask.toNat = (2 ^ length - 1) <<< (16 - length))
    (hsegment : segment &&& mask = segment) (hnetwork : network.toNat = segment.toNat * 2 ^ 112) :
    firstSegment address &&& mask = segment ↔ address.In network length := by
  have hmasked : ∀ x : BitVec 16, (x &&& mask).toNat = (x.toNat / 2 ^ (16 - length)) <<< (16 - length) := by
    intro x
    rw [BitVec.toNat_and, hmask]
    refine and_mask ?_
    rw [Nat.sub_add_cancel hlength]
    exact x.isLt
  have hdrop : ∀ n, n / 2 ^ (128 - length) = n / 2 ^ 112 / 2 ^ (16 - length) := by
    intro n
    rw [Nat.div_div_eq_div_mul, ← Nat.pow_add]
    congr 2
    omega
  rw [In, InNetwork, hdrop, hdrop, hnetwork, Nat.mul_div_cancel _ (Nat.two_pow_pos 112),
    ← toNat_firstSegment, ← BitVec.toNat_inj, hmasked]
  nth_rewrite 1 [← hsegment]
  rw [hmasked, Nat.shiftLeft_eq, Nat.shiftLeft_eq]
  exact ⟨Nat.eq_of_mul_eq_mul_right (Nat.two_pow_pos _), congrArg (· * _)⟩

end Ipv6
