import Clash.Lib.Inet

/-!
# resolv.c

`resolv` looks up the address of a host and prints it. `getaddrinfo` is a parameter.

## Main definitions

* `Addrinfo`: an entry of the list that `getaddrinfo` returns.
* `resolv`: the whole function.

## Main results

* `resolv_eq_some`: what `resolv` returns is a printed address.
-/

open CString Inet

namespace Resolv

/-- `struct sockaddr_in`. -/
structure SockaddrIn where
  family : ℕ
  port : ℕ
  addr : InAddr

/-- `struct addrinfo`, without the pointer to the next one. -/
structure Addrinfo where
  flags : ℕ
  family : ℕ
  socktype : ℕ
  protocol : ℕ
  addrlen : ℕ
  addr : Option SockaddrIn
  canonname : Option CString

/-- `common123`. -/
def common123 (it : Addrinfo) : Option SockaddrIn := do
  -- `AI_CANONNAME` and `AF_INET` are both 2
  guard (it.flags = 2 ∧ it.family = 2 ∧ it.addrlen = 16)
  let p ← it.addr
  guard (p.family = 2 ∧ p.port = 0 ∧ p.addr ≠ ⟨0, 0, 0, 0⟩)
  return p

/-- `common23`. -/
def common23 (it : Addrinfo) (p : SockaddrIn) (ret : CString) : Option Unit :=
  guard (it.canonname = none ∧ ntop4 p.addr = ret)

/-- `resolv(domain)`, or `none` if it does not return. The list has to have three entries, for
streams over TCP, datagrams over UDP, and raw sockets. -/
def resolv (getaddrinfo : CString → Option (List Addrinfo)) (domain : CString) :
    Option CString := do
  match ← getaddrinfo domain with
  | [first, second, third] =>
    let p1 ← common123 first
    guard (first.socktype = 1 ∧ first.protocol = 6 ∧ first.canonname ≠ none)
    let ret := ntop4 p1.addr
    let p2 ← common123 second
    common23 second p2 ret
    guard (second.socktype = 2 ∧ second.protocol = 17)
    let p3 ← common123 third
    common23 third p3 ret
    guard (third.socktype = 3 ∧ third.protocol = 0)
    return ret
  | _ => none

/-- What `resolv` returns is a printed address. -/
theorem resolv_eq_some {getaddrinfo : CString → Option (List Addrinfo)} {domain host : CString}
    (h : resolv getaddrinfo domain = some host) : ∃ x : InAddr, host = ntop4 x := by
  unfold resolv at h
  obtain ⟨infos, -, h⟩ := Option.bind_eq_some_iff.mp h
  split at h
  · -- the first address is the one that is printed, the other checks only read
    obtain ⟨p1, -, h⟩ := Option.bind_eq_some_iff.mp h
    refine ⟨p1.addr, ?_⟩
    obtain ⟨_, -, h⟩ := Option.bind_eq_some_iff.mp h
    obtain ⟨p2, -, h⟩ := Option.bind_eq_some_iff.mp h
    obtain ⟨_, -, h⟩ := Option.bind_eq_some_iff.mp h
    obtain ⟨_, -, h⟩ := Option.bind_eq_some_iff.mp h
    obtain ⟨p3, -, h⟩ := Option.bind_eq_some_iff.mp h
    obtain ⟨_, -, h⟩ := Option.bind_eq_some_iff.mp h
    obtain ⟨_, -, h⟩ := Option.bind_eq_some_iff.mp h
    cases h
    rfl
  · cases h

end Resolv
