/-
**Internet addresses, networks and authorities.**

An address is kept in sixteen bytes, an IPv4 address as a mapped one.  The texts of addresses are
read as `net/netip` reads them, an IPv6 address with its zone.  The authority of a URL is taken
apart in two ways: `net.SplitHostPort` wants a port and refuses a colon in a host without brackets,
while the host name and the port of a URL are what stands before and after the last colon.  Where
the first succeeds with a number for a port, both see the same.

Main definitions:

* `NetAddr.Ip`, `NetAddr.Ip.to4`, `NetAddr.Net.contains` — addresses and networks;
* `NetAddr.parseAddr`, `NetAddr.parseIP`, `NetAddr.parseCIDR` — their texts;
* `NetAddr.splitHostPort`, `NetAddr.urlSplit` — the two ways to take an authority apart.

Main results:

* `NetAddr.urlSplit_of_splitHostPort` — **both ways see the same host and port**;
* `NetAddr.ascii_of_parseIP` — an address is written in ASCII.
-/

import Mathlib.Data.List.TakeDrop
import Mathlib.Data.List.TakeWhile

set_option autoImplicit false

namespace NetAddr

/-! ### Addresses and networks -/

/-- An address in sixteen bytes. -/
abbrev Ip := BitVec 128

/-- The IPv4 address of a mapped one. -/
def Ip.to4 (ip : Ip) : Option (BitVec 32) :=
  if ip >>> 32 = 0xffff#128 then some (ip.setWidth 32) else none

def Ip.ofV4 (x : BitVec 32) : Ip := (0xffff#128 <<< 32) ||| x.setWidth 128

/-- An IPv4 address from its bytes. -/
def v4 (a b c d : BitVec 8) : BitVec 32 := a ++ b ++ c ++ d

/-- A network: an address and the number of leading ones in its mask. -/
inductive Net where
  | v4 (base : BitVec 32) (ones : ℕ)
  | v6 (base : BitVec 128) (ones : ℕ)
deriving DecidableEq

def Net.contains (n : Net) (ip : Ip) : Bool :=
  match n, ip.to4 with
  | .v4 base ones, some x => x >>> (32 - ones) == base >>> (32 - ones)
  | .v6 base ones, none => ip >>> (128 - ones) == base >>> (128 - ones)
  | _, _ => false

def Ip.isUnspecified (ip : Ip) : Bool := ip == 0#128 || ip == Ip.ofV4 0#32

def Ip.isLoopback (ip : Ip) : Bool :=
  match ip.to4 with
  | some x => x >>> 24 == 127#32
  | none => ip == 1#128

def Ip.isLinkLocalUnicast (ip : Ip) : Bool :=
  (Net.v4 (v4 169 254 0 0) 16).contains ip || (Net.v6 (0xfe80#128 <<< 112) 10).contains ip

/-- A multicast address of IPv6 of the given scope, whatever its flags are. -/
def Ip.isMulticastOf (scope : BitVec 128) (ip : Ip) : Bool :=
  (ip >>> 112) &&& 0xff0f#128 == 0xff00#128 ||| scope

def Ip.isLinkLocalMulticast (ip : Ip) : Bool :=
  (Net.v4 (v4 224 0 0 0) 24).contains ip || ip.isMulticastOf 2

def Ip.isInterfaceLocalMulticast (ip : Ip) : Bool := ip.isMulticastOf 1

/-- The private addresses of the standard library. -/
def Ip.isPrivate (ip : Ip) : Bool :=
  match ip.to4 with
  | some _ =>
    (Net.v4 (v4 10 0 0 0) 8).contains ip || (Net.v4 (v4 172 16 0 0) 12).contains ip ||
      (Net.v4 (v4 192 168 0 0) 16).contains ip
  | none => (Net.v6 (0xfc00#128 <<< 112) 7).contains ip

/-! ### The texts of addresses -/

def digitValue (c : Char) : Option ℕ :=
  if '0' ≤ c ∧ c ≤ '9' then some (c.toNat - '0'.toNat) else none

def hexValue (c : Char) : Option ℕ :=
  if '0' ≤ c ∧ c ≤ '9' then some (c.toNat - '0'.toNat)
  else if 'a' ≤ c ∧ c ≤ 'f' then some (c.toNat - 'a'.toNat + 10)
  else if 'A' ≤ c ∧ c ≤ 'F' then some (c.toNat - 'A'.toNat + 10)
  else none

/-- The number that is written in a base, if all its digits are digits of it. -/
def numberIn (base : ℕ) (value : Char → Option ℕ) (l : List Char) : Option ℕ :=
  l.foldlM (fun n c => (value c).map fun d => base * n + d) 0

/-- A field of an IPv4 address: no leading zero, and at most 255. -/
def parseOctet (l : List Char) : Option (BitVec 8) :=
  if l = [] ∨ (1 < l.length ∧ l.head? = some '0') then none
  else
    match numberIn 10 digitValue l with
    | some n => if n ≤ 255 then some (BitVec.ofNat 8 n) else none
    | none => none

def parseIPv4 (l : List Char) : Option (BitVec 32) :=
  match l.splitOn '.' with
  | [a, b, c, d] =>
    match parseOctet a, parseOctet b, parseOctet c, parseOctet d with
    | some a, some b, some c, some d => some (v4 a b c d)
    | _, _, _, _ => none
  | _ => none

/-- A field of an IPv6 address: up to four hexadecimal digits. -/
def parseGroup (l : List Char) : Option (BitVec 16) :=
  if l = [] ∨ 4 < l.length then none else (numberIn 16 hexValue l).map (BitVec.ofNat 16)

/-- Fields of an IPv6 address; the last may be an IPv4 address where that is allowed. -/
def parseGroups (v4Last : Bool) : List (List Char) → Option (List (BitVec 16))
  | [] => some []
  | [l] =>
    match parseGroup l with
    | some g => some [g]
    | none =>
      if v4Last then
        (parseIPv4 l).map fun (x : BitVec 32) => [(x >>> 16).setWidth 16, x.setWidth 16]
      else none
  | l :: l' :: ls =>
    match parseGroup l, parseGroups v4Last (l' :: ls) with
    | some g, some gs => some (g :: gs)
    | _, _ => none

/-- What stands before and after the first two colons in a row. -/
def cutEllipsis : List Char → Option (List Char × List Char)
  | ':' :: ':' :: l => some ([], l)
  | c :: l => (cutEllipsis l).map fun r => (c :: r.1, r.2)
  | [] => none

def ofGroups (gs : List (BitVec 16)) : Ip :=
  gs.foldl (fun ip g => (ip <<< 16) ||| g.setWidth 128) 0

/-- The fields on one side of the two colons: there may be none. -/
def parseSide (v4Last : Bool) (l : List Char) : Option (List (BitVec 16)) :=
  if l = [] then some [] else parseGroups v4Last (l.splitOn ':')

def parseIPv6 (l : List Char) : Option Ip :=
  match cutEllipsis l with
  | none =>
    match parseGroups true (l.splitOn ':') with
    | some gs => if gs.length = 8 then some (ofGroups gs) else none
    | none => none
  | some (left, right) =>
    match parseSide false left, parseSide true right with
    | some gs, some gs' =>
      if gs.length + gs'.length ≤ 7 then
        some (ofGroups (gs ++ List.replicate (8 - gs.length - gs'.length) 0 ++ gs'))
      else none
    | _, _ => none

/-- An address and its zone, which is empty if there is none. -/
def parseAddr (l : List Char) : Option (Ip × List Char) :=
  match l.find? (fun c => c == '.' || c == ':' || c == '%') with
  | some '.' => (parseIPv4 l).map fun x => (Ip.ofV4 x, [])
  | some ':' =>
    match l.span (· ≠ '%') with
    | (addr, []) => (parseIPv6 addr).map fun ip => (ip, [])
    | (_, [_]) => none
    | (addr, _ :: zone) => (parseIPv6 addr).map fun ip => (ip, zone)
  | _ => none

/-- `net.ParseIP`: an address without a zone. -/
def parseIP (l : List Char) : Option Ip :=
  match parseAddr l with
  | some (ip, []) => some ip
  | _ => none

/-- The address of a network, with the host part cleared; a mapped one is an IPv4 network. -/
def netOf (isV4 : Bool) (ip : Ip) (ones : ℕ) : Net :=
  if isV4 then .v4 (ip.setWidth 32) ones
  else
    let base := (ip >>> (128 - ones)) <<< (128 - ones)
    match Ip.to4 base with
    | some x => .v4 x (ones - 96)
    | none => .v6 base ones

def parseCIDR (l : List Char) : Option Net :=
  match l.span (· ≠ '/') with
  | (_, []) => none
  | (addr, _ :: mask) =>
    match parseAddr addr, numberIn 10 digitValue mask with
    | some (ip, []), some ones =>
      let isV4 := (parseIPv4 addr).isSome
      if mask ≠ [] ∧ ones ≤ (if isV4 then 32 else 128) then some (netOf isV4 ip ones) else none
    | _, _ => none

/-! ### Authorities -/

/-- What stands before and after the last of a character. -/
def cutLast (c : Char) : List Char → Option (List Char × List Char)
  | [] => none
  | a :: l =>
    match cutLast c l with
    | some (front, back) => some (a :: front, back)
    | none => if a = c then some ([], l) else none

/-- `net.SplitHostPort`. -/
def splitHostPort (l : List Char) : Option (List Char × List Char) :=
  match cutLast ':' l with
  | none => none
  | some (front, port) =>
    if l.head? = some '[' then
      match l.tail.span (· ≠ ']') with
      | (host, _ :: rest) =>
        if rest = ':' :: port ∧ '[' ∉ l.tail ∧ ']' ∉ rest then some (host, port) else none
      | (_, []) => none
    else if ':' ∈ front ∨ '[' ∈ l ∨ ']' ∈ l then none
    else some (front, port)

/-- The host without brackets around it. -/
def stripBrackets (l : List Char) : List Char :=
  if l.head? = some '[' ∧ l.tail.getLast? = some ']' then l.tail.dropLast else l

def isDigits (l : List Char) : Bool := l.all fun c => '0' ≤ c && c ≤ '9'

/-- The host name and the port of a URL. -/
def urlSplit (l : List Char) : List Char × List Char :=
  match cutLast ':' l with
  | some (front, port) =>
    if isDigits port then (stripBrackets front, port) else (stripBrackets l, [])
  | none => (stripBrackets l, [])

theorem cutLast_eq_none {c : Char} {l : List Char} : cutLast c l = none ↔ c ∉ l := by
  induction l with
  | nil => simp [cutLast]
  | cons a l ih =>
    rw [cutLast]
    cases hl : cutLast c l with
    | some r =>
      have hmem : c ∈ l := by
        by_contra hnot
        rw [ih.2 hnot] at hl
        cases hl
      simp [hmem]
    | none =>
      have hnot := ih.1 hl
      by_cases ha : a = c
      · simp [ha]
      · simp [ha, hnot, Ne.symm ha]

theorem cutLast_eq_some {c : Char} {l front back : List Char}
    (h : cutLast c l = some (front, back)) : l = front ++ c :: back ∧ c ∉ back := by
  induction l generalizing front with
  | nil => cases h
  | cons a l ih =>
    rw [cutLast] at h
    cases hl : cutLast c l with
    | some r =>
      rw [hl] at h
      cases h
      obtain ⟨hcut, hnot⟩ := ih hl
      refine ⟨?_, hnot⟩
      rw [List.cons_append, ← hcut]
    | none =>
      rw [hl] at h
      simp only at h
      split at h
      · rename_i ha
        cases h
        exact ⟨by rw [ha]; rfl, cutLast_eq_none.1 hl⟩
      · cases h

theorem stripBrackets_of_head {l : List Char} (h : l.head? ≠ some '[') : stripBrackets l = l := by
  rw [stripBrackets, if_neg]
  rintro ⟨hhead, -⟩
  exact h hhead

theorem stripBrackets_bracketed (host : List Char) :
    stripBrackets ('[' :: (host ++ [']'])) = host := by
  rw [stripBrackets, if_pos]
  · simp
  · simp

theorem span_ne_eq {c : Char} {l front rest : List Char}
    (h : l.span (· ≠ c) = (front, rest)) : l = front ++ rest ∧ ∀ a ∈ rest.head?, a = c := by
  rw [List.span_eq_takeWhile_dropWhile] at h
  cases h
  refine ⟨(List.takeWhile_append_dropWhile ..).symm, ?_⟩
  intro a ha
  have hdrop := List.head?_dropWhile_not (fun b => decide (b ≠ c)) l
  rw [Option.mem_def.1 ha] at hdrop
  simpa using hdrop

/-- **Both ways to take an authority apart see the same host and port**, if the port is a
number. -/
theorem urlSplit_of_splitHostPort {l host port : List Char}
    (h : splitHostPort l = some (host, port)) (hport : isDigits port = true) :
    urlSplit l = (host, port) := by
  rw [splitHostPort] at h
  cases hcut : cutLast ':' l with
  | none =>
    rw [hcut] at h
    cases h
  | some r =>
    obtain ⟨front, back⟩ := r
    obtain ⟨hl, -⟩ := cutLast_eq_some hcut
    rw [hcut] at h
    simp only at h
    rw [urlSplit, hcut]
    simp only
    by_cases hbracket : l.head? = some '['
    · rw [if_pos hbracket] at h
      cases hspan : l.tail.span (· ≠ ']') with
      | mk inner rest =>
        obtain ⟨htail, hclose⟩ := span_ne_eq hspan
        rw [hspan] at h
        cases rest with
        | nil => cases h
        | cons a rest =>
          simp only at h
          split at h
          · rename_i hcond
            cases h
            have ha : a = ']' := hclose a rfl
            have hlist : l = '[' :: (host ++ ']' :: ':' :: port) := by
              cases l with
              | nil => cases hbracket
              | cons b l =>
                have hb : b = '[' := by simpa using hbracket
                rw [hb, ← hcond.1, ← ha, ← htail]
                rfl
            have hfront : front = '[' :: (host ++ [']']) := by
              have heq : front ++ ':' :: port = ('[' :: (host ++ [']'])) ++ ':' :: port := by
                rw [← hl, hlist]
                simp
              exact List.append_cancel_right heq
            rw [if_pos hport, hfront, stripBrackets_bracketed]
          · cases h
    · rw [if_neg hbracket] at h
      split at h
      · cases h
      · rename_i hcond
        cases h
        have hhead : host.head? ≠ some '[' := by
          intro heq
          have hmem : '[' ∈ l := by
            rw [hl]
            exact List.mem_append_left _ (List.mem_of_mem_head? heq)
          exact hcond (.inr (.inl hmem))
        rw [if_pos hport, stripBrackets_of_head hhead]

/-! ### Addresses are written in ASCII -/

def Ascii (l : List Char) : Prop := ∀ c ∈ l, c.toNat < 128

theorem digitValue_ascii {c : Char} {n : ℕ} (h : digitValue c = some n) : c.toNat < 128 := by
  rw [digitValue] at h
  split at h
  · rename_i hc
    have hle : c.toNat ≤ '9'.toNat := hc.2
    have hnine : '9'.toNat = 57 := by decide
    omega
  · cases h

theorem hexValue_ascii {c : Char} {n : ℕ} (h : hexValue c = some n) : c.toNat < 128 := by
  have hnine : '9'.toNat = 57 := by decide
  have hlow : 'f'.toNat = 102 := by decide
  have hup : 'F'.toNat = 70 := by decide
  rw [hexValue] at h
  split at h
  · rename_i hc
    have hle : c.toNat ≤ '9'.toNat := hc.2
    omega
  · split at h
    · rename_i hc
      have hle : c.toNat ≤ 'f'.toNat := hc.2
      omega
    · split at h
      · rename_i hc
        have hle : c.toNat ≤ 'F'.toNat := hc.2
        omega
      · cases h

theorem foldlM_ascii {base : ℕ} {value : Char → Option ℕ}
    (hvalue : ∀ {c n}, value c = some n → c.toNat < 128) {l : List Char} {m n : ℕ}
    (h : l.foldlM (fun n c => (value c).map fun d => base * n + d) m = some n) : Ascii l := by
  induction l generalizing m with
  | nil => simp [Ascii]
  | cons a l ih =>
    rw [List.foldlM_cons] at h
    cases hv : value a with
    | none =>
      rw [hv] at h
      cases h
    | some d =>
      rw [hv] at h
      intro c hc
      rcases List.mem_cons.1 hc with rfl | hc
      · exact hvalue hv
      · exact ih h c hc

theorem parseOctet_ascii {l : List Char} {b : BitVec 8} (h : parseOctet l = some b) : Ascii l := by
  rw [parseOctet] at h
  split at h
  · cases h
  · cases hn : numberIn 10 digitValue l with
    | none =>
      rw [hn] at h
      cases h
    | some n => exact foldlM_ascii digitValue_ascii hn

theorem parseGroup_ascii {l : List Char} {g : BitVec 16} (h : parseGroup l = some g) :
    Ascii l := by
  rw [parseGroup] at h
  split at h
  · cases h
  · obtain ⟨n, hn, -⟩ := Option.map_eq_some_iff.1 h
    exact foldlM_ascii hexValue_ascii hn

/-- A list is in ASCII if its separators and all its pieces are. -/
theorem ascii_of_splitOn (sep : Char) (hsep : sep.toNat < 128) {l : List Char}
    (h : ∀ part ∈ l.splitOn sep, Ascii part) : Ascii l := by
  induction l with
  | nil => simp [Ascii]
  | cons a l ih =>
    rw [List.splitOn_cons_eq_if_modifyHead] at h
    obtain ⟨head, tail, hsplit⟩ := List.exists_cons_of_ne_nil (List.splitOn_ne_nil sep l)
    rw [hsplit] at h ih
    by_cases ha : (a == sep) = true
    · rw [if_pos ha] at h
      intro c hc
      rcases List.mem_cons.1 hc with rfl | hc
      · rw [beq_iff_eq.1 ha]
        exact hsep
      · exact ih (fun part hpart => h part (List.mem_cons_of_mem _ hpart)) c hc
    · rw [if_neg ha, List.modifyHead_cons] at h
      have hhead := h (a :: head) List.mem_cons_self
      intro c hc
      rcases List.mem_cons.1 hc with rfl | hc
      · exact hhead c List.mem_cons_self
      · refine ih (fun part hpart => ?_) c hc
        rcases List.mem_cons.1 hpart with rfl | hpart
        · exact fun b hb => hhead b (List.mem_cons_of_mem _ hb)
        · exact h part (List.mem_cons_of_mem _ hpart)

theorem parseIPv4_ascii {l : List Char} {x : BitVec 32} (h : parseIPv4 l = some x) :
    Ascii l := by
  rw [parseIPv4] at h
  split at h
  · rename_i a b c d hsplit
    refine ascii_of_splitOn '.' (by decide) ?_
    rw [hsplit]
    cases ha : parseOctet a with
    | none => simp [ha] at h
    | some oa =>
      cases hb : parseOctet b with
      | none => simp [ha, hb] at h
      | some ob =>
        cases hc : parseOctet c with
        | none => simp [ha, hb, hc] at h
        | some oc =>
          cases hd : parseOctet d with
          | none => simp [ha, hb, hc, hd] at h
          | some od =>
            simp only [List.forall_mem_cons]
            exact ⟨parseOctet_ascii ha, parseOctet_ascii hb, parseOctet_ascii hc,
              parseOctet_ascii hd, by simp⟩
  · cases h

theorem parseGroups_ascii {v4Last : Bool} {ls : List (List Char)} {gs : List (BitVec 16)}
    (h : parseGroups v4Last ls = some gs) : ∀ l ∈ ls, Ascii l := by
  induction ls generalizing gs with
  | nil => simp
  | cons l ls ih =>
    cases ls with
    | nil =>
      rw [parseGroups] at h
      intro l' hl'
      rw [List.mem_singleton.1 hl']
      cases hg : parseGroup l with
      | some g => exact parseGroup_ascii hg
      | none =>
        rw [hg] at h
        cases v4Last with
        | false => simp at h
        | true =>
          simp only [if_true] at h
          obtain ⟨x, hx, -⟩ := Option.map_eq_some_iff.1 h
          exact parseIPv4_ascii hx
    | cons l' ls =>
      rw [parseGroups] at h
      cases hg : parseGroup l with
      | none => simp [hg] at h
      | some g =>
        cases hgs : parseGroups v4Last (l' :: ls) with
        | none => simp [hg, hgs] at h
        | some gs' =>
          rw [List.forall_mem_cons]
          exact ⟨parseGroup_ascii hg, ih hgs⟩

theorem cutEllipsis_eq_some {l left right : List Char} (h : cutEllipsis l = some (left, right)) :
    l = left ++ ':' :: ':' :: right := by
  induction l using cutEllipsis.induct generalizing left with
  | case1 l =>
    rw [cutEllipsis] at h
    cases h
    rfl
  | case2 c l hne ih =>
    rw [cutEllipsis] at h
    · obtain ⟨r, hr, heq⟩ := Option.map_eq_some_iff.1 h
      cases heq
      rw [List.cons_append, ← ih hr]
    · exact hne
  | case3 => cases h

theorem parseSide_ascii {v4Last : Bool} {l : List Char} {gs : List (BitVec 16)}
    (h : parseSide v4Last l = some gs) : Ascii l := by
  rw [parseSide] at h
  split at h
  · rename_i hl
    rw [hl]
    simp [Ascii]
  · exact ascii_of_splitOn ':' (by decide) (parseGroups_ascii h)

theorem parseIPv6_ascii {l : List Char} {ip : Ip} (h : parseIPv6 l = some ip) : Ascii l := by
  rw [parseIPv6] at h
  cases hcut : cutEllipsis l with
  | none =>
    cases hgs : parseGroups true (l.splitOn ':') with
    | none => simp [hcut, hgs] at h
    | some gs => exact ascii_of_splitOn ':' (by decide) (parseGroups_ascii hgs)
  | some r =>
    obtain ⟨left, right⟩ := r
    cases hleft : parseSide false left with
    | none => simp [hcut, hleft] at h
    | some gs =>
      cases hright : parseSide true right with
      | none => simp [hcut, hleft, hright] at h
      | some gs' =>
        have hcolon : ':'.toNat < 128 := by decide
        rw [cutEllipsis_eq_some hcut]
        intro c hc
        simp only [List.mem_append, List.mem_cons] at hc
        rcases hc with hc | rfl | rfl | hc
        · exact parseSide_ascii hleft c hc
        · exact hcolon
        · exact hcolon
        · exact parseSide_ascii hright c hc

/-- **An address is written in ASCII.** -/
theorem ascii_of_parseIP {l : List Char} {ip : Ip} (h : parseIP l = some ip) : Ascii l := by
  rw [parseIP] at h
  cases haddr : parseAddr l with
  | none => simp [haddr] at h
  | some r =>
    obtain ⟨ip', zone⟩ := r
    rw [haddr] at h
    cases zone with
    | cons a zone => cases h
    | nil =>
      rw [parseAddr] at haddr
      split at haddr
      · obtain ⟨x, hx, -⟩ := Option.map_eq_some_iff.1 haddr
        exact parseIPv4_ascii hx
      · split at haddr
        · rename_i addr hspan
          obtain ⟨hl, -⟩ := span_ne_eq hspan
          obtain ⟨ip'', hip, -⟩ := Option.map_eq_some_iff.1 haddr
          rw [hl, List.append_nil]
          exact parseIPv6_ascii hip
        · cases haddr
        · rename_i addr a zone hzone hspan
          obtain ⟨ip'', hip, heq⟩ := Option.map_eq_some_iff.1 haddr
          cases heq
          exact absurd rfl hzone
      · cases haddr

end NetAddr
