import GofroRouter.Lib.Bytes

/-!
# The relay datagram codec

`encode` and `decode` of `gofro-relay`: an 8-byte seed, a masked 2-byte length, the masked
plaintext and up to 31 padding bytes, all drawn from one xorshift generator.

* `encode_of_fits`, `encode_of_small`: what `encode` writes, and when it refuses.
* `decode_eq_some`: a packet is decoded exactly when it is `body seed plain` followed by
  `padding seed` bytes, for some seed.
* **`codec_exact`**: round trip, exact image, packet budget and short buffers in one statement.
-/

namespace Gofro.Relay

open Bytes

/-! ## Size constants (`lib.rs`) -/

/-- The headers around a packet of the relay. -/
def IPV4_UDP_OVERHEAD : ℕ := 20 + 8

/-- What WireGuard adds to a packet of the tunnel. -/
def WIREGUARD_DATA_OVERHEAD : ℕ := 16 + 16

/-- The seed and the masked length. -/
def RELAY_HEADER_SIZE : ℕ := 10
def RELAY_MAX_PADDING : ℕ := 31
def MIN_UPLINK_MTU : ℕ := 1480
def MIN_TUNNEL_MTU : ℕ := 1280

/-- Everything the uplink carries besides the tunnelled packet is taken off its MTU. -/
def TUNNEL_MTU : ℕ :=
  MIN_UPLINK_MTU - IPV4_UDP_OVERHEAD - WIREGUARD_DATA_OVERHEAD - RELAY_HEADER_SIZE -
    RELAY_MAX_PADDING

/-- What is left of a packet of the tunnel for its payload. -/
def TCP_MSS : ℕ := MIN_TUNNEL_MTU - 20 - 20

/-- The receive buffer of both relay ends (`codec.rs`). -/
def BUFFER_SIZE : ℕ := 4096

/-! ## The generator -/

/-- One xorshift step; the top byte is the output. -/
def next_byte (state : UInt64) : UInt8 × UInt64 :=
  let state := state ^^^ (state <<< 13)
  let state := state ^^^ (state >>> 7)
  let state := state ^^^ (state <<< 17)
  ((state >>> 56).toUInt8, state)

/-- `n` bytes of the generator. -/
def draw : UInt64 → ℕ → List UInt8
  | _, 0 => []
  | stream, n + 1 => (next_byte stream).1 :: draw (next_byte stream).2 n

@[simp] theorem draw_length (stream : UInt64) (n : ℕ) : (draw stream n).length = n := by
  induction n generalizing stream with
  | zero => rfl
  | succ n ih => simp [draw, ih]

/-- The generator's start state for a packet seed. -/
def stream_of (seed : UInt64) : UInt64 := seed ^^^ 0xa076_1d64_78bd_642f

/-- The padding length, the first byte drawn. -/
def padding (seed : UInt64) : ℕ :=
  ((next_byte (stream_of seed)).1 &&& UInt8.ofNat RELAY_MAX_PADDING).toNat

/-- The generator's state after the padding length was drawn. -/
def body_stream (seed : UInt64) : UInt64 := (next_byte (stream_of seed)).2

theorem padding_le (seed : UInt64) : padding seed ≤ RELAY_MAX_PADDING := by
  rw [padding, UInt8.toNat_and]
  exact Nat.and_le_right

/-! ## Encoding and decoding -/

/-- `encode` for the seed `packet_seed` drew: the packet or the error, and the output buffer. -/
def encode (seed : UInt64) (plain output : List UInt8) :
    Except String (List UInt8) × List UInt8 :=
  if plain.length ≥ 2 ^ 16 then (.error "WireGuard datagram is too large", output)
  else
    let size := RELAY_HEADER_SIZE + plain.length + padding seed
    if output.length < size then (.error "relay output buffer is too small", output)
    else
      let (length, stream) := xorWith next_byte (body_stream seed) (toLE 2 plain.length)
      let (payload, stream) := xorWith next_byte stream plain
      let filled := toLE 8 seed.toNat ++ length ++ payload ++ draw stream (padding seed) ++
        output.drop size
      (.ok (filled.take size), filled)

/-- `decode`: the plaintext, if the packet is accepted, and the output buffer. -/
def decode (packet output : List UInt8) : Option (List UInt8) × List UInt8 :=
  if packet.length < RELAY_HEADER_SIZE then (none, output)
  else
    let seed := UInt64.ofNat (ofLE (packet.take 8))
    let (length, stream) := xorWith next_byte (body_stream seed) ((packet.drop 8).take 2)
    let length := ofLE length
    if length > output.length ∨ RELAY_HEADER_SIZE + length + padding seed ≠ packet.length then
      (none, output)
    else
      let (plain, _) := xorWith next_byte stream ((packet.drop RELAY_HEADER_SIZE).take length)
      (some plain, plain ++ output.drop length)

/-- The header and payload bytes of a packet. -/
def body (seed : UInt64) (plain : List UInt8) : List UInt8 :=
  let (length, stream) := xorWith next_byte (body_stream seed) (toLE 2 plain.length)
  toLE 8 seed.toNat ++ length ++ (xorWith next_byte stream plain).1

/-- The padding bytes of a packet. -/
def tail (seed : UInt64) (plain : List UInt8) : List UInt8 :=
  let stream := (xorWith next_byte (body_stream seed) (toLE 2 plain.length)).2
  draw (xorWith next_byte stream plain).2 (padding seed)

@[simp] theorem body_length (seed : UInt64) (plain : List UInt8) :
    (body seed plain).length = RELAY_HEADER_SIZE + plain.length := by
  simp [body, RELAY_HEADER_SIZE]; omega

@[simp] theorem tail_length (seed : UInt64) (plain : List UInt8) :
    (tail seed plain).length = padding seed := by
  simp [tail]

theorem encode_of_fits {seed : UInt64} {plain output : List UInt8} (hp : plain.length < 2 ^ 16)
    (ho : RELAY_HEADER_SIZE + plain.length + padding seed ≤ output.length) :
    encode seed plain output = (.ok (body seed plain ++ tail seed plain),
      body seed plain ++ tail seed plain ++
        output.drop (RELAY_HEADER_SIZE + plain.length + padding seed)) := by
  set size := RELAY_HEADER_SIZE + plain.length + padding seed with hsize
  have htake : (body seed plain ++ tail seed plain ++ output.drop size).take size =
      body seed plain ++ tail seed plain := List.take_left' (by simp [hsize])
  simp only [encode, if_neg (not_le.mpr hp), ← hsize, if_neg (not_lt.mpr ho)]
  exact Prod.ext (congrArg Except.ok htake) rfl

theorem encode_of_small {seed : UInt64} {plain output : List UInt8}
    (ho : output.length < RELAY_HEADER_SIZE + plain.length + padding seed) :
    ∃ e, encode seed plain output = (.error e, output) := by
  unfold encode
  split_ifs with h
  · exact ⟨_, rfl⟩
  · exact ⟨_, if_pos ho⟩

theorem encode_eq_ok {seed : UInt64} {plain output packet : List UInt8}
    (h : (encode seed plain output).1 = .ok packet) :
    plain.length < 2 ^ 16 ∧ packet = body seed plain ++ tail seed plain := by
  by_cases hp : plain.length < 2 ^ 16
  · by_cases ho : RELAY_HEADER_SIZE + plain.length + padding seed ≤ output.length
    · rw [encode_of_fits hp ho] at h
      exact ⟨hp, (Except.ok.inj h).symm⟩
    · obtain ⟨e, he⟩ := encode_of_small (not_le.mp ho)
      rw [he] at h; cases h
  · rw [encode, if_pos (not_lt.mp hp)] at h; cases h

theorem decode_none {packet output : List UInt8} (h : (decode packet output).1 = none) :
    decode packet output = (none, output) := by
  unfold decode at h ⊢
  split_ifs at h ⊢ with h₁
  · rfl
  · dsimp only at h ⊢
    split_ifs at h ⊢
    rfl

/-! ## The exact image -/

theorem seed_of_body (seed : UInt64) (plain rest : List UInt8) :
    UInt64.ofNat (ofLE ((body seed plain ++ rest).take 8)) = seed := by
  have ht : (body seed plain ++ rest).take 8 = toLE 8 seed.toNat := by
    simp only [body, List.append_assoc]
    rw [List.take_append_of_le_length (by simp), List.take_of_length_le (by simp)]
  have hs := seed.toNat_lt
  rw [ht, ofLE_toLE, Nat.mod_eq_of_lt (by omega), UInt64.ofNat_toNat]

theorem drop_body (seed : UInt64) (plain rest : List UInt8) :
    (body seed plain ++ rest).drop 8 =
      (xorWith next_byte (body_stream seed) (toLE 2 plain.length)).1 ++
        ((xorWith next_byte (xorWith next_byte (body_stream seed) (toLE 2 plain.length)).2
          plain).1 ++ rest) := by
  simp only [body, List.append_assoc]
  rw [List.drop_append_of_le_length (by simp), List.drop_of_length_le (by simp), List.nil_append]

/-- **Decoding a packet whose first bytes are `body seed plain`.** -/
theorem decode_body {seed : UInt64} {plain rest output : List UInt8} (hp : plain.length < 2 ^ 16) :
    decode (body seed plain ++ rest) output =
      if plain.length > output.length ∨ rest.length ≠ padding seed then (none, output)
      else (some plain, plain ++ output.drop plain.length) := by
  have hlen : (body seed plain ++ rest).length = RELAY_HEADER_SIZE + plain.length + rest.length := by
    simp
  have hh : ((body seed plain ++ rest).drop 8).take 2 =
      (xorWith next_byte (body_stream seed) (toLE 2 plain.length)).1 := by
    rw [drop_body, List.take_append_of_le_length (by simp), List.take_of_length_le (by simp)]
  have hpay : ((body seed plain ++ rest).drop RELAY_HEADER_SIZE).take plain.length =
      (xorWith next_byte (xorWith next_byte (body_stream seed) (toLE 2 plain.length)).2
        plain).1 := by
    rw [show RELAY_HEADER_SIZE = 8 + 2 from rfl, ← List.drop_drop, drop_body,
      List.drop_append_of_le_length (by simp), List.drop_of_length_le (by simp), List.nil_append,
      List.take_append_of_le_length (by simp), List.take_of_length_le (by simp)]
  have hn : ofLE (toLE 2 plain.length) = plain.length := by
    rw [ofLE_toLE]; exact Nat.mod_eq_of_lt hp
  have hst : (xorWith next_byte (body_stream seed)
      (xorWith next_byte (body_stream seed) (toLE 2 plain.length)).1).2 =
        (xorWith next_byte (body_stream seed) (toLE 2 plain.length)).2 :=
    xorWith_state _ _ (by simp)
  have hne : (RELAY_HEADER_SIZE + plain.length + padding seed ≠
      RELAY_HEADER_SIZE + plain.length + rest.length) ↔ rest.length ≠ padding seed := by omega
  rw [decode, if_neg (by rw [hlen]; omega)]
  simp only [seed_of_body, hh, xorWith_xorWith, hn, hst, hpay, hlen, hne]

/-- A packet of the right length starts with the body of its own decoding. -/
theorem take_eq_body {packet : List UInt8} (hh : RELAY_HEADER_SIZE ≤ packet.length)
    {seed : UInt64} (hs : seed = UInt64.ofNat (ofLE (packet.take 8))) {plain : List UInt8}
    (hn : plain.length = ofLE (xorWith next_byte (body_stream seed) ((packet.drop 8).take 2)).1)
    (hp : plain = (xorWith next_byte (xorWith next_byte (body_stream seed)
      ((packet.drop 8).take 2)).2 ((packet.drop RELAY_HEADER_SIZE).take plain.length)).1) :
    packet.take (RELAY_HEADER_SIZE + plain.length) = body seed plain := by
  have hh' : 10 ≤ packet.length := hh
  have h8 : (packet.take 8).length = 8 := by simp; omega
  have h2 : ((packet.drop 8).take 2).length = 2 := by simp; omega
  have hlt := ofLE_lt (packet.take 8)
  rw [h8] at hlt
  have hseed : toLE 8 seed.toNat = packet.take 8 := by
    have h := toLE_ofLE (packet.take 8)
    rwa [h8, ← Nat.mod_eq_of_lt (show ofLE (packet.take 8) < 2 ^ 64 by omega),
      ← UInt64.toNat_ofNat', ← hs] at h
  set s := body_stream seed with hsdef
  have hlen : (xorWith next_byte s (toLE 2 plain.length)).1 = (packet.drop 8).take 2 := by
    have h := toLE_ofLE (xorWith next_byte s ((packet.drop 8).take 2)).1
    rw [xorWith_length, h2, ← hn] at h
    rw [h, xorWith_xorWith]
  have hst : (xorWith next_byte s (toLE 2 plain.length)).2 =
      (xorWith next_byte s ((packet.drop 8).take 2)).2 := xorWith_state _ _ (by simp [h2])
  have hpay : (xorWith next_byte (xorWith next_byte s ((packet.drop 8).take 2)).2 plain).1 =
      (packet.drop RELAY_HEADER_SIZE).take plain.length := by
    rw [congrArg (fun p => (xorWith next_byte _ p).1) hp, xorWith_xorWith]
  simp only [body, ← hsdef, hseed, hlen, hst, hpay]
  rw [List.append_assoc, List.take_add, show RELAY_HEADER_SIZE = 8 + 2 from rfl,
    List.take_add, List.append_assoc]

/-- **Exact image of `decode`.** -/
theorem decode_eq_some {packet output plain : List UInt8} :
    (decode packet output).1 = some plain ↔ plain.length ≤ output.length ∧ plain.length < 2 ^ 16 ∧
      ∃ seed, packet.take (RELAY_HEADER_SIZE + plain.length) = body seed plain ∧
        packet.length = RELAY_HEADER_SIZE + plain.length + padding seed := by
  constructor
  · intro h
    unfold decode at h
    split_ifs at h with hh
    dsimp only at h
    split_ifs at h with hl
    obtain ⟨hlo, hlp⟩ := not_or.mp hl
    have hplain := (Option.some.inj h).symm
    have hn : plain.length = ofLE (xorWith next_byte (body_stream
        (UInt64.ofNat (ofLE (packet.take 8)))) ((packet.drop 8).take 2)).1 := by
      rw [hplain, xorWith_length, List.length_take, List.length_drop]
      omega
    have hlt := ofLE_lt (xorWith next_byte (body_stream
        (UInt64.ofNat (ofLE (packet.take 8)))) ((packet.drop 8).take 2)).1
    rw [xorWith_length] at hlt
    have h2 : ((packet.drop 8).take 2).length = 2 := by
      have : 10 ≤ packet.length := not_lt.mp hh
      simp; omega
    rw [h2] at hlt
    refine ⟨by omega, by omega, _, take_eq_body (not_lt.mp hh) rfl hn ?_, by omega⟩
    rw [hn]; exact hplain
  · rintro ⟨ho, hp, seed, hb, hl⟩
    have hd := @decode_body seed plain (packet.drop (RELAY_HEADER_SIZE + plain.length)) output hp
    rw [← hb, List.take_append_drop, if_neg] at hd
    · rw [hd]
    · simp only [not_or, not_lt, ne_eq, not_not]
      exact ⟨ho, by rw [List.length_drop]; omega⟩

theorem seed_of_take {packet plain : List UInt8} {seed : UInt64}
    (hb : packet.take (RELAY_HEADER_SIZE + plain.length) = body seed plain) :
    UInt64.ofNat (ofLE (packet.take 8)) = seed := by
  rw [← List.take_append_drop (RELAY_HEADER_SIZE + plain.length) packet, hb]
  exact seed_of_body seed plain _

theorem accepted_length {p q out out' plain plain' : List UInt8}
    (hp : (decode p out).1 = some plain) (hq : (decode q out').1 = some plain')
    (h : p.take RELAY_HEADER_SIZE = q.take RELAY_HEADER_SIZE) : p.length = q.length := by
  obtain ⟨-, hn, seed, hb, hl⟩ := decode_eq_some.mp hp
  obtain ⟨-, hn', seed', hb', hl'⟩ := decode_eq_some.mp hq
  have htake : p.take 8 = q.take 8 := by
    have := congrArg (List.take 8) h
    simpa [List.take_take, RELAY_HEADER_SIZE] using this
  have hs : seed = seed' := by rw [← seed_of_take hb, ← seed_of_take hb', htake]
  subst hs
  have hdrop : ∀ {x y : List UInt8}, x.take (RELAY_HEADER_SIZE + y.length) = body seed y →
      (x.take RELAY_HEADER_SIZE).drop 8 =
        (xorWith next_byte (body_stream seed) (toLE 2 y.length)).1 := by
    intro x y hxy
    have h₁ : x.take RELAY_HEADER_SIZE = (body seed y).take RELAY_HEADER_SIZE := by
      rw [← hxy, List.take_take, Nat.min_eq_left (Nat.le_add_right _ _)]
    have h₂ := drop_body seed y []
    rw [List.append_nil] at h₂
    rw [h₁, show RELAY_HEADER_SIZE = 8 + 2 from rfl, List.drop_take, h₂,
      List.take_append_of_le_length (by simp), List.take_of_length_le (by simp)]
  have hx := xorWith_inj next_byte (body_stream seed) ((hdrop hb).symm.trans (h ▸ hdrop hb'))
  have hlen := congrArg ofLE hx
  rw [ofLE_toLE, ofLE_toLE] at hlen
  omega

theorem take_header_eq {p q : List UInt8} (h : p <+: q) (hl : RELAY_HEADER_SIZE ≤ p.length) :
    p.take RELAY_HEADER_SIZE = q.take RELAY_HEADER_SIZE := by
  obtain ⟨t, rfl⟩ := h
  rw [List.take_append_of_le_length hl]

/-- **No accepted packet is a proper prefix of another.** -/
theorem eq_of_prefix_of_accepted {p q out out' plain plain' : List UInt8} (h : p <+: q)
    (hp : (decode p out).1 = some plain) (hq : (decode q out').1 = some plain') : p = q := by
  have hl : RELAY_HEADER_SIZE ≤ p.length := by
    obtain ⟨-, -, _, -, hl⟩ := decode_eq_some.mp hp
    omega
  exact h.eq_of_length (accepted_length hp hq (take_header_eq h hl))

/-- **The relay codec.** For every seed and every plaintext of at most 65535 bytes: `encode` into a
large enough buffer gives a packet that `decode` turns back into the plaintext; `decode` delivers
`plain` exactly for the packets whose header and payload are those of an encoding of `plain` and
whose length is `10 + |plain| + padding seed`; no proper prefix (so none cut at the receive buffer)
and no extension of an accepted packet is accepted; a full tunnel packet fits the uplink; a buffer
that is too small makes `encode` fail and `decode` return nothing, and leaves the buffer as it was. -/
theorem codec_exact (plain : List UInt8) (hplain : plain.length ≤ 65535) :
    (∀ seed output, RELAY_HEADER_SIZE + plain.length + padding seed ≤ output.length →
      ∃ packet, (encode seed plain output).1 = .ok packet ∧
        ∀ buffer : List UInt8, plain.length ≤ buffer.length →
          (decode packet buffer).1 = some plain) ∧
    (∀ packet buffer, (decode packet buffer).1 = some plain ↔ plain.length ≤ buffer.length ∧
      ∃ seed output encoded, (encode seed plain output).1 = .ok encoded ∧
        packet.take (RELAY_HEADER_SIZE + plain.length) =
          encoded.take (RELAY_HEADER_SIZE + plain.length) ∧
        packet.length = RELAY_HEADER_SIZE + plain.length + padding seed) ∧
    (∀ packet buffer, (decode packet buffer).1 = some plain → ∀ other buffer',
      (other <+: packet ∨ packet <+: other) → other ≠ packet →
        decode other buffer' = (none, buffer')) ∧
    (∀ packet buffer, (decode packet buffer).1 = some plain → BUFFER_SIZE < packet.length →
      ∀ buffer', decode (packet.take BUFFER_SIZE) buffer' = (none, buffer')) ∧
    (plain.length ≤ TUNNEL_MTU + WIREGUARD_DATA_OVERHEAD → ∀ seed output packet,
      (encode seed plain output).1 = .ok packet →
        packet.length + IPV4_UDP_OVERHEAD ≤ MIN_UPLINK_MTU) ∧
    (∀ seed output, output.length < RELAY_HEADER_SIZE + plain.length + padding seed →
      ∃ e, encode seed plain output = (.error e, output)) ∧
    (∀ packet buffer, (decode packet buffer).1 = some plain → ∀ buffer',
      buffer'.length < plain.length → decode packet buffer' = (none, buffer')) := by
  have hp : plain.length < 2 ^ 16 := by omega
  have hother : ∀ packet buffer, (decode packet buffer).1 = some plain → ∀ other buffer',
      (other <+: packet ∨ packet <+: other) → other ≠ packet →
        decode other buffer' = (none, buffer') := by
    intro packet buffer h other buffer' ho hne
    apply decode_none
    cases hd : (decode other buffer').1 with
    | none => rfl
    | some plain' =>
      exfalso
      rcases ho with ho | ho
      · exact hne (eq_of_prefix_of_accepted ho hd h)
      · exact hne (eq_of_prefix_of_accepted ho h hd).symm
  refine ⟨?_, ?_, hother, ?_, ?_, fun seed output => encode_of_small, ?_⟩
  · intro seed output ho
    refine ⟨_, congrArg Prod.fst (encode_of_fits hp ho), fun buffer hb => ?_⟩
    rw [decode_body hp, if_neg (by simpa using hb)]
  · intro packet buffer
    rw [decode_eq_some]
    constructor
    · rintro ⟨hb, -, seed, ht, hl⟩
      refine ⟨hb, seed, List.replicate (RELAY_HEADER_SIZE + plain.length + padding seed) 0, _,
        congrArg Prod.fst (encode_of_fits hp (by simp)), ?_, hl⟩
      rw [ht, ← body_length seed plain, List.take_left]
    · rintro ⟨hb, seed, output, encoded, he, ht, hl⟩
      obtain ⟨-, rfl⟩ := encode_eq_ok he
      rw [← body_length seed plain, List.take_left, body_length] at ht
      exact ⟨hb, hp, seed, ht, hl⟩
  · intro packet buffer h hlen buffer'
    refine hother packet buffer h _ buffer' (.inl (List.take_prefix _ _)) fun heq => ?_
    have := congrArg List.length heq
    rw [List.length_take] at this
    omega
  · intro hmtu seed output packet he
    obtain ⟨-, rfl⟩ := encode_eq_ok he
    have := padding_le seed
    rw [List.length_append, body_length, tail_length]
    simp only [TUNNEL_MTU, MIN_UPLINK_MTU, IPV4_UDP_OVERHEAD, WIREGUARD_DATA_OVERHEAD,
      RELAY_HEADER_SIZE, RELAY_MAX_PADDING] at *
    omega
  · intro packet buffer h buffer' hb
    apply decode_none
    cases hd : (decode packet buffer').1 with
    | none => rfl
    | some plain' =>
      exfalso
      obtain ⟨-, hn, seed, ht, hl⟩ := decode_eq_some.mp h
      obtain ⟨hb', hn', seed', ht', hl'⟩ := decode_eq_some.mp hd
      have hs : seed = seed' := by rw [← seed_of_take ht, ← seed_of_take ht']
      subst hs
      omega

/-- The start of an IPv4 packet. -/
def samplePlain : List UInt8 := [0x45, 0x00, 0x00, 0x54, 0xa6, 0xf2, 0x40, 0x00]

/-- Eight masked bytes are read back. -/
theorem codec_exact_sample : ∃ packet,
    (encode 7 samplePlain (List.replicate 64 0)).1 = .ok packet ∧
    (packet.drop RELAY_HEADER_SIZE).take 8 = [0x7c, 0xfe, 0x21, 0xf7, 0xad, 0xd4, 0xf9, 0xe6] ∧
    (decode packet (List.replicate 8 0)).1 = some samplePlain := by
  have hfits : RELAY_HEADER_SIZE + samplePlain.length + padding 7 ≤
      (List.replicate 64 (0 : UInt8)).length := by decide +kernel
  obtain ⟨packet, he, hd⟩ := (codec_exact samplePlain (by decide)).1 7 (List.replicate 64 0) hfits
  have hmasked : (encode 7 samplePlain (List.replicate 64 0)).1.map (fun packet =>
      (packet.drop RELAY_HEADER_SIZE).take 8) =
        .ok [0x7c, 0xfe, 0x21, 0xf7, 0xad, 0xd4, 0xf9, 0xe6] := by decide +kernel
  rw [he] at hmasked
  exact ⟨packet, he, Except.ok.inj hmasked, hd _ (by decide)⟩

end Gofro.Relay
