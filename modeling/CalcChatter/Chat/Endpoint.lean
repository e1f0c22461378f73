import CalcChatter.Chat.Channel

/-!
# Endpoints: what the constructor stores and `ToString` prints (Chatter.h:19-26, :68-104)

`ExtractIpAndPort` takes the text before the first `:` and `atoi` of the text between the first and
the second one, cut to 16 bits; without a `:` the port stays what it was. `extractIpAndPort_eq` says
so for every text. What is printed is read back as it was (`extractIpAndPort_endpointText`).

`atoi` and the conversion to `unsigned short` both wrap, and nothing checks the range:
`port_as_written_iff` says which numbers survive.
-/

namespace CalcChatter.Chat

open Cxx

/-- The text before the first `:`. -/
def ipText (e : Bytes) : Bytes := e.takeWhile (· != ch ':')

/-- The text after the first `:`. -/
def afterColon (e : Bytes) : Bytes := (e.dropWhile (· != ch ':')).tail

/-- The text between the first `:` and the second one. -/
def portText (e : Bytes) : Bytes := (afterColon e).takeWhile (· != ch ':')

/-- `ip + ':' + to_string(port)`, as `ToString` prints an endpoint. -/
def endpointText (ip : Bytes) (port : UInt16) : Bytes := ip ++ ch ':' :: intToString port.toNat

/-! ## `ExtractIpAndPort` on every text -/

section Fields

variable {a b : Bytes}

theorem ipText_colon (ha : ch ':' ∉ a) : ipText (a ++ ch ':' :: b) = a := by
  have hne := bne_of_not_mem ha
  simp [ipText, List.takeWhile_append_of_pos hne]

theorem ipText_plain (ha : ch ':' ∉ a) : ipText a = a := List.takeWhile_eq_self_iff.2 (bne_of_not_mem ha)

theorem afterColon_colon (ha : ch ':' ∉ a) : afterColon (a ++ ch ':' :: b) = b := by
  have hne := bne_of_not_mem ha
  simp [afterColon, List.dropWhile_append_of_pos hne]

theorem portText_colon (ha : ch ':' ∉ a) (hb : ch ':' ∉ b) : portText (a ++ ch ':' :: b) = b := by
  rw [portText, afterColon_colon ha]
  exact ipText_plain hb

theorem colon_not_mem_ipText (e : Bytes) : ch ':' ∉ ipText e := by
  intro h
  simpa using List.mem_takeWhile_imp h

theorem oneOf_colon_false (ha : ch ':' ∉ a) : ∀ c ∈ a, oneOf [ch ':'] c = false := by
  intro c hc
  simpa using bne_of_not_mem ha c hc

theorem pieces_plain (ha : ch ':' ∉ a) : a.splitOnP (oneOf [ch ':']) = [a] :=
  List.splitOnP_eq_singleton (oneOf_colon_false ha)

theorem pieces_colon (ha : ch ':' ∉ a) :
    (a ++ ch ':' :: b).splitOnP (oneOf [ch ':']) = a :: b.splitOnP (oneOf [ch ':']) :=
  List.splitOnP_append_cons_of_forall_mem (oneOf_colon_false ha) _ (by simp) b

/-- The first piece of a text cut at its colons. -/
theorem pieces_head (s : Bytes) : ∃ rest, s.splitOnP (oneOf [ch ':']) = ipText s :: rest := by
  by_cases h : ch ':' ∈ s
  · obtain ⟨x, y, rfl, hx⟩ := List.eq_append_cons_of_mem h
    exact ⟨_, by rw [ipText_colon hx, pieces_colon hx]⟩
  · exact ⟨[], by rw [ipText_plain h, pieces_plain h]⟩

end Fields

/-- What `ExtractIpAndPort` makes of every text. -/
theorem extractIpAndPort_eq {e : Bytes} (he : Fits e) (ip : Bytes) (port : UInt16) :
    extractIpAndPort e ip port =
      .ok (ipText e, if ch ':' ∈ e then toUShort (atoi (cStr (portText e))) else port) := by
  have hcur := cursor_new he [ch ':']
  have hnew : (Tokeniser.new e [ch ':']).hasNext = true := rfl
  simp only [extractIpAndPort, hnew, ↓reduceIte, nextToken_eq]
  by_cases h : ch ':' ∈ e
  · obtain ⟨a, b, rfl, ha⟩ := List.eq_append_cons_of_mem h
    obtain ⟨rest, hb⟩ := pieces_head b
    rw [pieces_colon ha, hb] at hcur
    obtain ⟨t, ht, hcur⟩ := nextToken_cursor hcur
    obtain ⟨t', ht', -⟩ := nextToken_cursor hcur
    have hport : portText (a ++ ch ':' :: b) = ipText b := by rw [portText, afterColon_colon ha, ipText]
    simp [ht, ht', cursor_hasNext hcur, bind, Except.bind, pure, Except.pure, ipText_colon ha, hport]
  · rw [pieces_plain h] at hcur
    obtain ⟨t, ht, hcur⟩ := nextToken_cursor hcur
    simp [ht, cursor_nil hcur, bind, Except.bind, pure, Except.pure, ipText_plain h, h]

/-! ## Printing and reading back -/

theorem toNat_toUShort (v : Int) : ((toUShort v).toNat : Int) = v % 65536 := by
  have hlt : (v % 65536).toNat < 65536 := by omega
  rw [toUShort, UInt16.toNat_ofNat', Nat.mod_eq_of_lt hlt]
  omega

theorem intToString_port (port : UInt16) : intToString port.toNat = decimal port.toNat := by
  simp [intToString]

theorem colon_not_mem_decimal (n : Nat) : ch ':' ∉ decimal n := by
  intro h
  exact absurd ((decimal_digits n).2 _ h) (by decide)

theorem toUShort_decimal (port : UInt16) : toUShort (atoi (cStr (decimal port.toNat))) = port := by
  have hlt := port.toNat_lt
  rw [atoi_decimal (by omega), ← UInt16.toNat_inj]
  have h := toNat_toUShort port.toNat
  omega

/-- A printed endpoint is read back as it was. -/
theorem extractIpAndPort_endpointText {ip : Bytes} (hip : ch ':' ∉ ip) {port : UInt16}
    (hfit : Fits (endpointText ip port)) (ip₀ : Bytes) (port₀ : UInt16) :
    extractIpAndPort (endpointText ip port) ip₀ port₀ = .ok (ip, port) := by
  rw [extractIpAndPort_eq hfit, endpointText, intToString_port, ipText_colon hip,
    portText_colon hip (colon_not_mem_decimal _), toUShort_decimal, if_pos (by simp)]

/-- The stored endpoint prints as the text it was read from exactly if that text has one `:`, with
the decimal of a port number after it. -/
theorem endpointText_eq_iff (e : Bytes) {port : UInt16}
    (hport : port = if ch ':' ∈ e then toUShort (atoi (cStr (portText e))) else 0) :
    endpointText (ipText e) port = e ↔ e.count (ch ':') = 1 ∧ ∃ n, n ≤ 65535 ∧ afterColon e = decimal n := by
  rw [endpointText, intToString_port]
  constructor
  · intro heq
    obtain ⟨ip, hip, rfl⟩ : ∃ ip, ch ':' ∉ ip ∧ e = ip ++ ch ':' :: decimal port.toNat :=
      ⟨ipText e, colon_not_mem_ipText e, heq.symm⟩
    have hlt := port.toNat_lt
    constructor
    · rw [List.count_append, List.count_cons_self, List.count_eq_zero_of_not_mem hip,
        List.count_eq_zero_of_not_mem (colon_not_mem_decimal _)]
    · exact ⟨port.toNat, by omega, afterColon_colon hip⟩
  · rintro ⟨hcount, n, hn, hafter⟩
    have hmem : ch ':' ∈ e := List.count_pos_iff.1 (by omega)
    obtain ⟨a, b, rfl, ha⟩ := List.eq_append_cons_of_mem hmem
    rw [afterColon_colon ha] at hafter
    subst hafter
    rw [if_pos hmem, portText_colon ha (colon_not_mem_decimal n), atoi_decimal (by omega)] at hport
    have hnat := toNat_toUShort n
    rw [ipText_colon ha, hport, show (toUShort n).toNat = n by omega]

/-- What the constructor stores of the endpoint `e`, and when it prints as `e`. -/
structure Stored (e ip : Bytes) (port : UInt16) : Prop where
  ip_eq : ip = ipText e
  port_eq : (port.toNat : Int) = if ch ':' ∈ e then atoi (cStr (portText e)) % 65536 else 0
  printed_iff : endpointText ip port = e ↔
    e.count (ch ':') = 1 ∧ ∃ n, n ≤ 65535 ∧ afterColon e = decimal n

theorem extractIpAndPort_stored {e : Bytes} (he : Fits e) :
    ∃ ip port, extractIpAndPort e [] 0 = .ok (ip, port) ∧ Stored e ip port ∧ ch ':' ∉ ip := by
  refine ⟨_, _, extractIpAndPort_eq he [] 0, ⟨rfl, ?_, endpointText_eq_iff e rfl⟩, colon_not_mem_ipText e⟩
  split
  · exact toNat_toUShort _
  · rfl

namespace UdpChatChannel

variable {H : Type}

theorem toString_eq (c : UdpChatChannel H) :
    c.toString = endpointText c.myIp c.myPort ++ lit " <---> " ++ endpointText c.peerIp c.peerPort := by
  simp [toString, endpointText]

theorem new_eq {myEndpoint peerEndpoint myIp peerIp : Bytes} {myPort peerPort : UInt16}
    (hm : extractIpAndPort myEndpoint [] 0 = .ok (myIp, myPort))
    (hp : extractIpAndPort peerEndpoint [] 0 = .ok (peerIp, peerPort)) :
    (new myEndpoint peerEndpoint : Except Exn (UdpChatChannel H)) =
      .ok ⟨none, myIp, myPort, peerIp, peerPort, none, none, none, 0, false⟩ := by
  simp [new, hm, hp, bind, Except.bind, pure, Except.pure]

/-- **What a channel makes of its endpoints.** For all texts: the channel stores the part before the
first `:` and the number `atoi` reads behind it, cut to 16 bits, and `ToString` prints them. A channel
built from what is printed is the same channel. An endpoint is printed as it was given exactly if it
has one `:` with the decimal of a number up to 65535 behind it. -/
theorem endpoints_stored {myEndpoint peerEndpoint : Bytes} (hmy : Fits myEndpoint) (hpeer : Fits peerEndpoint) :
    ∃ c : UdpChatChannel H, new myEndpoint peerEndpoint = .ok c ∧
      Stored myEndpoint c.myIp c.myPort ∧ Stored peerEndpoint c.peerIp c.peerPort ∧
      c.toString = endpointText c.myIp c.myPort ++ lit " <---> " ++ endpointText c.peerIp c.peerPort ∧
      (Fits (endpointText c.myIp c.myPort) → Fits (endpointText c.peerIp c.peerPort) →
        new (endpointText c.myIp c.myPort) (endpointText c.peerIp c.peerPort) = .ok c) := by
  obtain ⟨myIp, myPort, hm, hmstored, hmip⟩ := extractIpAndPort_stored hmy
  obtain ⟨peerIp, peerPort, hp, hpstored, hpip⟩ := extractIpAndPort_stored hpeer
  refine ⟨_, new_eq hm hp, hmstored, hpstored, toString_eq _, ?_⟩
  intro hfitm hfitp
  exact new_eq (extractIpAndPort_endpointText hmip hfitm [] 0) (extractIpAndPort_endpointText hpip hfitp [] 0)

theorem endpoints_stored_signs : ∃ c : UdpChatChannel Unit, new (lit "host: +0080:x") (lit "peer") = .ok c ∧
    endpointText c.myIp c.myPort = lit "host:80" ∧ endpointText c.peerIp c.peerPort = lit "peer:0" ∧
    new (lit "host:80") (lit "peer:0") = .ok c := by
  obtain ⟨c, hnew, -, -, -, hagain⟩ :=
    @endpoints_stored Unit (lit "host: +0080:x") (lit "peer") (by decide) (by decide)
  have hc : c = ⟨none, lit "host", 80, lit "peer", 0, none, none, none, 0, false⟩ :=
    Except.ok.inj (hnew.symm.trans rfl)
  subst hc
  exact ⟨_, hnew, rfl, rfl, hagain (by decide) (by decide)⟩

end UdpChatChannel

/-! ## Numbers that are no port -/

/-- The port of an endpoint with the number `n` written in it: saturated to a `long`, then cut. -/
def wrapped (n : Nat) : Nat := min n (2 ^ 63 - 1) % 65536

/-- A numeral: decimal digits, at least one. -/
def IsNumeral (p : Bytes) : Prop := p ≠ [] ∧ ∀ c ∈ p, isdigit c = true

instance (p : Bytes) : Decidable (IsNumeral p) := inferInstanceAs (Decidable (_ ∧ _))

theorem extractIpAndPort_numeral {ip p : Bytes} (hip : ch ':' ∉ ip) (hp : IsNumeral p) (hfit : Fits (ip ++ ch ':' :: p))
    (ip₀ : Bytes) (port₀ : UInt16) :
    ∃ port, extractIpAndPort (ip ++ ch ':' :: p) ip₀ port₀ = .ok (ip, port) ∧ port.toNat = wrapped (valueOf p) := by
  have hcolon : ch ':' ∉ p := fun h => absurd (hp.2 _ h) (by decide)
  have hnum : Numeral p (valueOf p) := @Numeral.intro [] .none p (by simp) hp.1 hp.2
  refine ⟨toUShort (atoi (cStr p)), ?_, ?_⟩
  · rw [extractIpAndPort_eq hfit, ipText_colon hip, portText_colon hip hcolon, if_pos (by simp)]
  · have hmin : longMin = -2 ^ 63 := rfl
    have hmax : longMax = 2 ^ 63 - 1 := rfl
    have hport := toNat_toUShort (atoi (cStr p))
    generalize toUShort (atoi (cStr p)) = port at hport ⊢
    rw [atoi_numeral hnum, toInt_eq] at hport
    unfold wrapped
    split at hport <;> omega

/-- **When the port used is the port written.** For every numeral behind the `:`, of any length: the
port is the number written, or the old one where the number is no port, if and only if the number is a
port or wraps to the old one. Two endpoints with different numbers denote the same non-zero port, when
the port starts as 0, if and only if the numbers wrap to the same non-zero port. -/
theorem port_as_written_iff {ip p : Bytes} (hip : ch ':' ∉ ip) (hp : IsNumeral p) (hfit : Fits (ip ++ ch ':' :: p)) :
    (∀ (ip₀ : Bytes) (port₀ : UInt16), ∃ port, extractIpAndPort (ip ++ ch ':' :: p) ip₀ port₀ = .ok (ip, port) ∧
      (port.toNat = valueOf p ∨ (65535 < valueOf p ∧ port = port₀) ↔
        valueOf p ≤ 65535 ∨ wrapped (valueOf p) = port₀.toNat)) ∧
    ∀ ip' p' : Bytes, ch ':' ∉ ip' → IsNumeral p' → Fits (ip' ++ ch ':' :: p') → valueOf p ≠ valueOf p' →
      ∃ port port', extractIpAndPort (ip ++ ch ':' :: p) [] 0 = .ok (ip, port) ∧
        extractIpAndPort (ip' ++ ch ':' :: p') [] 0 = .ok (ip', port') ∧
        (¬ (port = port' ∧ port ≠ 0) ↔
          wrapped (valueOf p) ≠ wrapped (valueOf p') ∨ wrapped (valueOf p) = 0) := by
  constructor
  · intro ip₀ port₀
    obtain ⟨port, hport, hval⟩ := extractIpAndPort_numeral hip hp hfit ip₀ port₀
    refine ⟨port, hport, ?_⟩
    have hlt := port.toNat_lt
    rw [← UInt16.toNat_inj, hval]
    by_cases hn : valueOf p ≤ 65535
    · have hkeep : wrapped (valueOf p) = valueOf p := by
        unfold wrapped
        omega
      simp [hn, hkeep]
    · constructor
      · rintro (h | ⟨-, h⟩)
        · omega
        · exact .inr h
      · rintro (h | h)
        · omega
        · exact .inr ⟨by omega, h⟩
  · intro ip' p' hip' hp' hfit' _
    obtain ⟨port, hport, hval⟩ := extractIpAndPort_numeral hip hp hfit [] 0
    obtain ⟨port', hport', hval'⟩ := extractIpAndPort_numeral hip' hp' hfit' [] 0
    refine ⟨port, port', hport, hport', ?_⟩
    rw [ne_eq, ← UInt16.toNat_inj, ← UInt16.toNat_inj, hval, hval', UInt16.toNat_zero, not_and_or, not_not]

theorem port_as_written_iff_four_digits : ∃ port, extractIpAndPort (lit "127.0.0.1:2000") [] 7 = .ok (lit "127.0.0.1", port) ∧
    port.toNat = 2000 := by
  obtain ⟨hone, -⟩ := @port_as_written_iff (lit "127.0.0.1") (lit "2000") (by decide) (by decide) (by decide)
  obtain ⟨port, hport, hiff⟩ := hone [] 7
  have hval : valueOf (lit "2000") = 2000 := rfl
  rw [hval] at hiff
  exact ⟨port, hport, (hiff.2 (.inl (by omega))).resolve_right (by omega)⟩

/-- The number 65537 is no port, and becomes the port 1, as the number 1 does. -/
theorem port_aliased : extractIpAndPort (lit "host:65537") [] 0 = .ok (lit "host", 1) ∧
    extractIpAndPort (lit "host:1") [] 0 = .ok (lit "host", 1) ∧ valueOf (lit "65537") = 65537 := ⟨rfl, rfl, rfl⟩

end CalcChatter.Chat
