import Mathlib.Data.List.TakeWhile
import PythonSystemd.Python.Pyutil

/-!
# Socket addresses

`parse_sockaddr` and `assign_address` of `util.c`, and `is_socket_sockaddr` of `_daemon.c`, which
passes the address on to the library. A C string is the list of its bytes before the terminating
zero. What they call is given: the two `inet_pton`, `if_nametoindex`, the probe for IPv6 and
`safe_atou`.

The union of the two kinds of address is a record of its storage, in which a field of one kind is
also the bytes of a field of the other. `Denotes` says what address a text stands for, in four
forms, and `parseSockaddr_grammar` that `parse_sockaddr` builds that address and accepts nothing
else.
-/

set_option autoImplicit false
set_option relaxedAutoImplicit false

namespace PythonSystemd.Util

open Library.CheckedMemory Python

/-! ### The address -/

def AF_INET : UInt16 := 2

def AF_INET6 : UInt16 := 10

def sizeofSockaddrIn : ℕ := 16

def sizeofSockaddrIn6 : ℕ := 28

/-- A `union sockaddr_union` in memory. The family and the port lie in the same place in both kinds
of address, `sin_addr` where `sin6_flowinfo` lies, and the padding of `sockaddr_in` in
`sin6_addr`. -/
structure SockaddrUnion where
  family : UInt16
  port : Vector UInt8 2
  sinAddr : Vector UInt8 4
  sin6Addr : Vector UInt8 16
  sin6ScopeId : UInt32
  deriving DecidableEq

/-- The address as `is_socket_sockaddr` declares it. -/
def SockaddrUnion.zero : SockaddrUnion where
  family := 0
  port := Vector.replicate 2 0
  sinAddr := Vector.replicate 4 0
  sin6Addr := Vector.replicate 16 0
  sin6ScopeId := 0

def inaddrAny : Vector UInt8 4 := Vector.replicate 4 0

def in6addrAny : Vector UInt8 16 := Vector.replicate 16 0

/-- `htobe16`, as the bytes in memory. -/
def htobe16 (port : UInt16) : Vector UInt8 2 :=
  #v[(port >>> 8).toUInt8, port.toUInt8]

/-! ### What is called -/

/-- What `inet_pton` returns: one and the bytes it has stored, zero, or `-1` with an error. -/
inductive PtonResult (count : ℕ)
  | converted (address : Vector UInt8 count)
  | invalid
  | failed (errno : ℕ) (hpos : 0 < errno)

/-- The functions of the C library and the probe of the kernel. -/
structure NetCalls where
  inetPton4 : List UInt8 → PtonResult 4
  inetPton6 : List UInt8 → PtonResult 16
  ifNametoindex : List UInt8 → UInt32
  ipv6IsSupported : Bool

/-- The size of the buffer for the name of an interface. -/
def IF_NAMESIZE : ℕ := 16

def openBracket : UInt8 := '['.toUInt8

def closeBracket : UInt8 := ']'.toUInt8

def colon : UInt8 := ':'.toUInt8

/-- `strchr`: the text before the first such character and behind it, or nothing. -/
def strchr (text : List UInt8) (c : UInt8) : Option (List UInt8 × List UInt8) :=
  match text.dropWhile (· ≠ c) with
  | [] => none
  | _ :: rest => some (text.takeWhile (· ≠ c), rest)

/-! ### The functions -/

/-- `assign_address`. -/
def assignAddress (calls : NetCalls) (s : List UInt8) (port : UInt16) (addr : SockaddrUnion) :
    Except ℤ (SockaddrUnion × ℕ) :=
  match calls.inetPton4 s with
  | .failed errno _ => .error (-errno)
  | .converted address =>
    .ok ({ addr with family := AF_INET, port := htobe16 port, sinAddr := address },
      sizeofSockaddrIn)
  | .invalid =>
    if s.length > IF_NAMESIZE - 1 then .error (-EINVAL)
    else
      let idx := calls.ifNametoindex s
      if idx = 0 then .error (-EINVAL)
      else
        .ok ({ addr with
            family := AF_INET6
            port := htobe16 port
            sin6ScopeId := idx
            sin6Addr := in6addrAny },
          sizeofSockaddrIn6)

variable (calls : NetCalls) (safeAtou : List UInt8 → Except ℤ UInt32)

/-- The check of a number for being a port, which `parse_sockaddr` makes in three places. -/
def checkPort (u : UInt32) : Except ℤ UInt16 :=
  if u ≤ 0 ∨ u > 0xFFFF then .error (-EINVAL) else .ok u.toUInt16

/-- A port behind a colon. -/
def parsePort (e : List UInt8) : Except ℤ UInt16 := do
  let u ← safeAtou e
  checkPort u

/-- What `parse_sockaddr` does with the text behind the closing bracket. -/
def parseSuffix (addr : SockaddrUnion) : (e : List UInt8) → Except ℤ SockaddrUnion
  | [] => .ok addr
  | c :: e =>
    if c ≠ colon then .error (-EINVAL)
    else do
      let port ← parsePort safeAtou e
      return { addr with port := htobe16 port }

/-- `parse_sockaddr`. -/
def parseSockaddr (s : List UInt8) (addr : SockaddrUnion) : Except ℤ (SockaddrUnion × ℕ) :=
  if s.head? = some openBracket then
    match strchr s.tail closeBracket with
    | none => .error (-EINVAL)
    | some (n, e) =>
      match calls.inetPton6 n with
      | .failed errno _ => .error (-errno)
      | .invalid => .error (-EINVAL)
      | .converted address => do
        let addr ← parseSuffix safeAtou { addr with sin6Addr := address } e
        return ({ addr with family := AF_INET6 }, sizeofSockaddrIn6)
  else
    match strchr s colon with
    | some (n, e) => do
      let port ← parsePort safeAtou e
      assignAddress calls n port addr
    | none =>
      match safeAtou s with
      | .error _ => assignAddress calls s 0 addr
      | .ok u => do
        let port ← checkPort u
        return if calls.ipv6IsSupported then
            ({ addr with family := AF_INET6, port := htobe16 port, sin6Addr := in6addrAny },
              sizeofSockaddrIn6)
          else
            ({ addr with family := AF_INET, port := htobe16 port, sinAddr := inaddrAny },
              sizeofSockaddrIn)

/-- The exception for a negative result. -/
def errorResult {α : Type} (r : ℤ) (invalidMessage : Option String) : Except PyException α :=
  match setError r none invalidMessage with
  | none => .error .systemError
  | some exception => .error exception

/-- The bytes of a number in memory, lowest first. -/
def hostBytes (value : UInt32) : Vector UInt8 4 :=
  #v[value.toUInt8, (value >>> 8).toUInt8, (value >>> 16).toUInt8, (value >>> 24).toUInt8]

/-- The address with the flow information of a caller who gives one. -/
def withFlowinfo (flowinfo : Int32) (addr : SockaddrUnion) : SockaddrUnion :=
  if flowinfo ≠ 0 then { addr with sinAddr := hostBytes flowinfo.toUInt32 } else addr

/-- `is_socket_sockaddr` with its arguments parsed, and a library that checks the socket against
the address where the module was compiled against one that can. -/
def isSocketSockaddr (sdIsSocketSockaddr : Option (SockaddrUnion × ℕ → ℤ)) (address : List UInt8)
    (flowinfo : Int32) : Except PyException Bool :=
  match parseSockaddr calls safeAtou address .zero with
  | .error r => errorResult r (some "Cannot parse address")
  | .ok (addr, addrLen) =>
    if flowinfo ≠ 0 ∧ addr.family ≠ AF_INET6 then
      errorResult (-EINVAL) (some "flowinfo is only applicable to IPv6 addresses")
    else
      match sdIsSocketSockaddr with
      | none => errorResult (-ENOSYS) (some "Compiled without support for sd_is_socket_sockaddr")
      | some check =>
        let r := check (withFlowinfo flowinfo addr, addrLen)
        if r < 0 then errorResult r none else .ok (decide (r ≠ 0))

/-! ### What a text denotes -/

/-- An address with its port, zero where there is none. -/
inductive Endpoint
  | inet (address : Vector UInt8 4) (port : UInt16)
  | inet6 (address : Vector UInt8 16) (port : UInt16) (scopeId : UInt32)

/-- The union for an endpoint, in which all else is zero, and its length. -/
def Endpoint.sockaddr : Endpoint → SockaddrUnion × ℕ
  | .inet address port =>
    ({ SockaddrUnion.zero with family := AF_INET, port := htobe16 port, sinAddr := address },
      sizeofSockaddrIn)
  | .inet6 address port scopeId =>
    ({ SockaddrUnion.zero with
        family := AF_INET6
        port := htobe16 port
        sin6Addr := address
        sin6ScopeId := scopeId },
      sizeofSockaddrIn6)

/-- A text that stands for a port. -/
def DenotesPort (text : List UInt8) (port : UInt16) : Prop :=
  ∃ u, safeAtou text = .ok u ∧ 1 ≤ u.toNat ∧ u.toNat ≤ 65535 ∧ port = u.toUInt16

/-- A host: an address, or else an interface. -/
inductive DenotesHost (host : List UInt8) (port : UInt16) : Endpoint → Prop
  | address (address : Vector UInt8 4) (haddress : calls.inetPton4 host = .converted address) :
      DenotesHost host port (.inet address port)
  | interface (haddress : calls.inetPton4 host = .invalid)
      (hlength : host.length ≤ IF_NAMESIZE - 1) (hindex : calls.ifNametoindex host ≠ 0) :
      DenotesHost host port (.inet6 in6addrAny port (calls.ifNametoindex host))

/-- Any address of the machine, for a bare port. -/
def anyEndpoint (port : UInt16) : Endpoint :=
  if calls.ipv6IsSupported then .inet6 in6addrAny port 0 else .inet inaddrAny port

/-- The text that follows an address in brackets, with the port it stands for. -/
inductive DenotesSuffix : List UInt8 → UInt16 → Prop
  | none : DenotesSuffix [] 0
  | port (text : List UInt8) (port : UInt16) (hport : DenotesPort safeAtou text port) :
      DenotesSuffix (colon :: text) port

/-- The four forms of an address. -/
inductive Denotes : List UInt8 → Endpoint → Prop
  | bracketed (v6 suffix : List UInt8) (address : Vector UInt8 16) (port : UInt16)
      (hv6 : closeBracket ∉ v6) (haddress : calls.inetPton6 v6 = .converted address)
      (hsuffix : DenotesSuffix safeAtou suffix port) :
      Denotes (openBracket :: v6 ++ closeBracket :: suffix) (.inet6 address port 0)
  | hostPort (host text : List UInt8) (port : UInt16) (endpoint : Endpoint)
      (hbracket : (host ++ colon :: text).head? ≠ some openBracket) (hcolon : colon ∉ host)
      (hport : DenotesPort safeAtou text port) (hhost : DenotesHost calls host port endpoint) :
      Denotes (host ++ colon :: text) endpoint
  | port (text : List UInt8) (port : UInt16) (hbracket : text.head? ≠ some openBracket)
      (hcolon : colon ∉ text) (hport : DenotesPort safeAtou text port) :
      Denotes text (anyEndpoint calls port)
  | host (host : List UInt8) (endpoint : Endpoint) (hbracket : host.head? ≠ some openBracket)
      (hcolon : colon ∉ host) (hnumber : ∃ r, safeAtou host = .error r)
      (hhost : DenotesHost calls host 0 endpoint) :
      Denotes host endpoint

/-! ### Parts of a text -/

theorem strchr_eq_none_iff {text : List UInt8} {c : UInt8} : strchr text c = none ↔ c ∉ text := by
  unfold strchr
  cases hdrop : text.dropWhile (· ≠ c) with
  | nil =>
    have hall := List.dropWhile_eq_nil_iff.mp hdrop
    exact iff_of_true rfl fun hmem ↦ of_decide_eq_true (hall c hmem) rfl
  | cons first rest =>
    refine iff_of_false (Option.some_ne_none _) fun hnot ↦ ?_
    have hnil : text.dropWhile (· ≠ c) = [] :=
      List.dropWhile_eq_nil_iff.mpr fun other hother ↦
        decide_eq_true fun heq ↦ hnot (heq ▸ hother)
    rw [hdrop] at hnil
    cases hnil

theorem strchr_append {c : UInt8} {before : List UInt8} (h : c ∉ before) (rest : List UInt8) :
    strchr (before ++ c :: rest) c = some (before, rest) := by
  have hbefore : ∀ other ∈ before, decide (other ≠ c) = true :=
    fun other hother ↦ decide_eq_true fun heq ↦ h (heq ▸ hother)
  unfold strchr
  rw [List.dropWhile_append_of_pos hbefore, List.takeWhile_append_of_pos hbefore]
  simp

theorem eq_append_of_strchr {text before rest : List UInt8} {c : UInt8}
    (h : strchr text c = some (before, rest)) : text = before ++ c :: rest ∧ c ∉ before := by
  have hmem : c ∈ text := by
    by_contra hnot
    rw [strchr_eq_none_iff.mpr hnot] at h
    cases h
  obtain ⟨first, last, rfl, hfirst⟩ := List.eq_append_cons_of_mem hmem
  rw [strchr_append hfirst] at h
  obtain ⟨rfl, rfl⟩ := Prod.mk.inj (Option.some.inj h)
  exact ⟨rfl, hfirst⟩

variable {calls safeAtou}

/-! ### Parts of an address -/

theorem checkPort_eq_ok_iff {u : UInt32} {port : UInt16} :
    checkPort u = .ok port ↔ 1 ≤ u.toNat ∧ u.toNat ≤ 65535 ∧ port = u.toUInt16 := by
  have hlow : u ≤ 0 ↔ u.toNat ≤ 0 := UInt32.le_iff_toNat_le
  have hhigh : u > 0xFFFF ↔ 65535 < u.toNat := UInt32.lt_iff_toNat_lt
  unfold checkPort
  split_ifs with h
  · refine iff_of_false (fun h ↦ by cases h) ?_
    rintro ⟨hone, hmax, -⟩
    rw [hlow, hhigh] at h
    omega
  · rw [hlow, hhigh] at h
    constructor
    · intro hport
      obtain rfl := Except.ok.inj hport
      exact ⟨by omega, by omega, rfl⟩
    · rintro ⟨-, -, rfl⟩
      rfl

theorem parsePort_eq_ok_iff {e : List UInt8} {port : UInt16} :
    parsePort safeAtou e = .ok port ↔ DenotesPort safeAtou e port := by
  unfold parsePort DenotesPort
  exact returned_bind.trans (exists_congr fun _ ↦ and_congr_right fun _ ↦ checkPort_eq_ok_iff)

/-- On a zeroed address, `assign_address` builds the endpoint of the host. -/
theorem assignAddress_eq_ok_iff {s : List UInt8} {port : UInt16} {result : SockaddrUnion × ℕ} :
    assignAddress calls s port .zero = .ok result ↔
      ∃ endpoint, DenotesHost calls s port endpoint ∧ result = endpoint.sockaddr := by
  unfold assignAddress
  constructor
  · intro h
    cases hpton : calls.inetPton4 s with
    | failed errno hpos =>
      rw [hpton] at h
      cases h
    | converted address =>
      rw [hpton] at h
      exact ⟨_, .address address hpton, (Except.ok.inj h).symm⟩
    | invalid =>
      rw [hpton] at h
      dsimp only at h
      split_ifs at h with hlength hindex
      exact ⟨_, .interface hpton (not_lt.mp hlength) hindex, (Except.ok.inj h).symm⟩
  · rintro ⟨endpoint, hhost, rfl⟩
    cases hhost with
    | address address hpton =>
      rw [hpton]
      rfl
    | interface hpton hlength hindex =>
      rw [hpton]
      dsimp only
      rw [if_neg (not_lt.mpr hlength), if_neg hindex]
      rfl

/-- On an address without a port, the text behind the bracket stores the one it stands for. -/
theorem parseSuffix_eq_ok_iff {addr after : SockaddrUnion} (haddr : addr.port = htobe16 0)
    {e : List UInt8} :
    parseSuffix safeAtou addr e = .ok after ↔
      ∃ port, DenotesSuffix safeAtou e port ∧ after = { addr with port := htobe16 port } := by
  constructor
  · intro h
    cases e with
    | nil =>
      obtain rfl := Except.ok.inj h
      exact ⟨0, .none, by rw [← haddr]⟩
    | cons c e =>
      rw [parseSuffix] at h
      split_ifs at h with hc
      · obtain rfl := not_not.mp hc
        obtain ⟨port, hport, hafter⟩ := returned_bind.mp h
        exact ⟨port, .port e port (parsePort_eq_ok_iff.mp hport), (Except.ok.inj hafter).symm⟩
  · rintro ⟨port, hsuffix, rfl⟩
    cases hsuffix with
    | none =>
      rw [parseSuffix, ← haddr]
    | port text port hport =>
      rw [parseSuffix, if_neg (not_not.mpr rfl), parsePort_eq_ok_iff.mpr hport]
      rfl

/-! ### The grammar -/

/-- A text of one of the forms is accepted, and its address built. -/
theorem parseSockaddr_of_denotes {s : List UInt8} {endpoint : Endpoint}
    (h : Denotes calls safeAtou s endpoint) :
    parseSockaddr calls safeAtou s .zero = .ok endpoint.sockaddr := by
  unfold parseSockaddr
  cases h with
  | bracketed v6 suffix address port hv6 haddress hsuffix =>
    have hparse : parseSuffix safeAtou { SockaddrUnion.zero with sin6Addr := address } suffix =
        .ok { SockaddrUnion.zero with sin6Addr := address, port := htobe16 port } :=
      (parseSuffix_eq_ok_iff rfl).mpr ⟨port, hsuffix, rfl⟩
    rw [List.cons_append, List.head?_cons, if_pos rfl, List.tail_cons, strchr_append hv6]
    dsimp only
    rw [haddress]
    dsimp only
    rw [hparse]
    rfl
  | hostPort host text port endpoint hbracket hcolon hport hhost =>
    rw [if_neg hbracket, strchr_append hcolon]
    dsimp only
    rw [parsePort_eq_ok_iff.mpr hport]
    exact assignAddress_eq_ok_iff.mpr ⟨endpoint, hhost, rfl⟩
  | port text port hbracket hcolon hport =>
    obtain ⟨u, hu, hrange⟩ := hport
    rw [if_neg hbracket, strchr_eq_none_iff.mpr hcolon]
    dsimp only
    rw [hu]
    dsimp only
    rw [checkPort_eq_ok_iff.mpr hrange]
    unfold anyEndpoint
    split_ifs
    · rfl
    · rfl
  | host host endpoint hbracket hcolon hnumber hhost =>
    obtain ⟨r, hr⟩ := hnumber
    rw [if_neg hbracket, strchr_eq_none_iff.mpr hcolon]
    dsimp only
    rw [hr]
    exact assignAddress_eq_ok_iff.mpr ⟨endpoint, hhost, rfl⟩

/-- An accepted text that starts with a bracket is of the first form. -/
theorem denotes_of_parseSockaddr_bracket {s : List UInt8} {result : SockaddrUnion × ℕ}
    (hbracket : s.head? = some openBracket)
    (h : parseSockaddr calls safeAtou s .zero = .ok result) :
    ∃ endpoint, Denotes calls safeAtou s endpoint ∧ result = endpoint.sockaddr := by
  obtain ⟨rest, rfl⟩ := List.head?_eq_some_iff.mp hbracket
  unfold parseSockaddr at h
  rw [if_pos hbracket, List.tail_cons] at h
  cases hclose : strchr rest closeBracket with
  | none =>
    rw [hclose] at h
    cases h
  | some parts =>
    obtain ⟨v6, suffix⟩ := parts
    rw [hclose] at h
    obtain ⟨rfl, hv6⟩ := eq_append_of_strchr hclose
    dsimp only at h
    cases hpton : calls.inetPton6 v6 with
    | failed errno hpos =>
      rw [hpton] at h
      cases h
    | invalid =>
      rw [hpton] at h
      cases h
    | converted address =>
      rw [hpton] at h
      obtain ⟨after, hparse, hresult⟩ := returned_bind.mp h
      obtain ⟨port, hsuffix, rfl⟩ := (parseSuffix_eq_ok_iff rfl).mp hparse
      exact ⟨_, .bracketed v6 suffix address port hv6 hpton hsuffix,
        (Except.ok.inj hresult).symm⟩

/-- An accepted text that does not start with a bracket is of one of the other forms. -/
theorem denotes_of_parseSockaddr_plain {s : List UInt8} {result : SockaddrUnion × ℕ}
    (hbracket : s.head? ≠ some openBracket)
    (h : parseSockaddr calls safeAtou s .zero = .ok result) :
    ∃ endpoint, Denotes calls safeAtou s endpoint ∧ result = endpoint.sockaddr := by
  unfold parseSockaddr at h
  rw [if_neg hbracket] at h
  cases hsplit : strchr s colon with
  | some parts =>
    obtain ⟨host, text⟩ := parts
    rw [hsplit] at h
    obtain ⟨rfl, hcolon⟩ := eq_append_of_strchr hsplit
    obtain ⟨port, hport, hassign⟩ := returned_bind.mp h
    obtain ⟨endpoint, hhost, hresult⟩ := assignAddress_eq_ok_iff.mp hassign
    exact ⟨endpoint, .hostPort host text port endpoint hbracket hcolon
      (parsePort_eq_ok_iff.mp hport) hhost, hresult⟩
  | none =>
    have hcolon := strchr_eq_none_iff.mp hsplit
    rw [hsplit] at h
    dsimp only at h
    cases hnumber : safeAtou s with
    | error r =>
      rw [hnumber] at h
      obtain ⟨endpoint, hhost, hresult⟩ := assignAddress_eq_ok_iff.mp h
      exact ⟨endpoint, .host s endpoint hbracket hcolon ⟨r, hnumber⟩ hhost, hresult⟩
    | ok u =>
      rw [hnumber] at h
      obtain ⟨port, hport, hresult⟩ := returned_bind.mp h
      refine ⟨anyEndpoint calls port,
        .port s port hbracket hcolon ⟨u, hnumber, checkPort_eq_ok_iff.mp hport⟩, ?_⟩
      obtain rfl := Except.ok.inj hresult
      unfold anyEndpoint
      split_ifs
      · rfl
      · rfl

theorem parseSockaddr_eq_ok_iff {s : List UInt8} {result : SockaddrUnion × ℕ} :
    parseSockaddr calls safeAtou s .zero = .ok result ↔
      ∃ endpoint, Denotes calls safeAtou s endpoint ∧ result = endpoint.sockaddr := by
  constructor
  · intro h
    by_cases hbracket : s.head? = some openBracket
    · exact denotes_of_parseSockaddr_bracket hbracket h
    · exact denotes_of_parseSockaddr_plain hbracket h
  · rintro ⟨endpoint, hdenotes, rfl⟩
    exact parseSockaddr_of_denotes hdenotes

/-- The length is that of the family, and nothing is stored in the fields of the other family. -/
inductive Consistent (address : SockaddrUnion) : ℕ → Prop
  | inet (hfamily : address.family = AF_INET) (haddress : address.sin6Addr = in6addrAny)
      (hscope : address.sin6ScopeId = 0) : Consistent address sizeofSockaddrIn
  | inet6 (hfamily : address.family = AF_INET6) (haddress : address.sinAddr = inaddrAny) :
      Consistent address sizeofSockaddrIn6

theorem consistent_sockaddr (endpoint : Endpoint) :
    Consistent endpoint.sockaddr.1 endpoint.sockaddr.2 := by
  cases endpoint with
  | inet address port => exact .inet rfl rfl rfl
  | inet6 address port scopeId => exact .inet6 rfl rfl

/-- `parse_sockaddr` succeeds exactly on the four forms, with the address that the text denotes,
whose length and fields belong to its family. -/
theorem parseSockaddr_grammar (calls : NetCalls) (safeAtou : List UInt8 → Except ℤ UInt32)
    (s : List UInt8) (result : SockaddrUnion × ℕ) :
    (parseSockaddr calls safeAtou s .zero = .ok result ↔
      ∃ endpoint, Denotes calls safeAtou s endpoint ∧ result = endpoint.sockaddr) ∧
    (parseSockaddr calls safeAtou s .zero = .ok result → Consistent result.1 result.2) := by
  refine ⟨parseSockaddr_eq_ok_iff, fun h ↦ ?_⟩
  obtain ⟨endpoint, -, rfl⟩ := parseSockaddr_eq_ok_iff.mp h
  exact consistent_sockaddr endpoint

/-! ### What the library is asked -/

theorem errorResult_ne_ok {α : Type} (r : ℤ) (invalidMessage : Option String) (value : α) :
    errorResult r invalidMessage ≠ .ok value := by
  unfold errorResult
  intro h
  cases hset : setError r none invalidMessage with
  | none =>
    rw [hset] at h
    cases h
  | some exception =>
    rw [hset] at h
    cases h

/-- `is_socket_sockaddr` returns exactly when the text denotes an endpoint, of the family that has
flow information if there is some, and the library checks the socket against that endpoint; the
flow information is then part of it. -/
theorem isSocketSockaddr_eq_ok_iff (calls : NetCalls) (safeAtou : List UInt8 → Except ℤ UInt32)
    (check : SockaddrUnion × ℕ → ℤ) (address : List UInt8) (flowinfo : Int32) (answer : Bool) :
    isSocketSockaddr calls safeAtou (some check) address flowinfo = .ok answer ↔
      ∃ endpoint, Denotes calls safeAtou address endpoint ∧
        (flowinfo ≠ 0 → endpoint.sockaddr.1.family = AF_INET6) ∧
        0 ≤ check (withFlowinfo flowinfo endpoint.sockaddr.1, endpoint.sockaddr.2) ∧
        answer = decide
          (check (withFlowinfo flowinfo endpoint.sockaddr.1, endpoint.sockaddr.2) ≠ 0) := by
  unfold isSocketSockaddr
  constructor
  · intro h
    cases hparse : parseSockaddr calls safeAtou address .zero with
    | error r =>
      rw [hparse] at h
      exact absurd h (errorResult_ne_ok r _ answer)
    | ok result =>
      obtain ⟨endpoint, hdenotes, rfl⟩ := parseSockaddr_eq_ok_iff.mp hparse
      rw [hparse] at h
      dsimp only at h
      split_ifs at h with hflow hneg
      · exact absurd h (errorResult_ne_ok _ _ answer)
      · exact absurd h (errorResult_ne_ok _ _ answer)
      · refine ⟨endpoint, hdenotes, fun hne ↦ ?_, not_lt.mp hneg, (Except.ok.inj h).symm⟩
        by_contra hfamily
        exact hflow ⟨hne, hfamily⟩
  · rintro ⟨endpoint, hdenotes, hfamily, hnonneg, rfl⟩
    have hflow : ¬ (flowinfo ≠ 0 ∧ endpoint.sockaddr.1.family ≠ AF_INET6) :=
      fun h ↦ h.2 (hfamily h.1)
    rw [parseSockaddr_of_denotes hdenotes]
    dsimp only
    rw [if_neg hflow, if_neg (not_lt.mpr hnonneg)]

end PythonSystemd.Util
