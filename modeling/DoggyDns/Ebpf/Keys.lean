import DoggyDns.Ebpf.Reply
import Mathlib.Data.Set.Basic

/-!
# Kernel keys against userspace keys

Userspace hashes the wire form of a lowercased name; the kernel hashes whatever
stands before the first zero byte of the question. Where no label holds a zero
byte the two are the same bytes, hence the same key.

The converse is about what a matching key says of the frame. `Aliased` names
are the ones whose wire form is longer than what the kernel hashes but pads to
the same words; they are the only way a frame can hit an entry stored for a
different question.
-/

namespace DoggyDns.Ebpf

open Bytes WordHash

/-- A question a cache entry is stored for. -/
structure Question where
  name : Name
  qtype : UInt16
  qclass : UInt16
  deriving DecidableEq

/-- The key userspace inserts a question's entry under. -/
def Question.key {H : Type} (hs : WordHasher H) (e : Question) : CacheKey H :=
  makeCacheKeyWith hs e.name e.qtype e.qclass

/-! ## The same key -/

/-- Without zero bytes in labels, the root label is the first zero byte. -/
theorem wire_body {ls : List Label} (h : LabelsOk ls) (h0 : ∀ l ∈ ls, 0 ∉ l) :
    ∃ body, wire ls = body ++ [0] ∧ 0 ∉ body := by
  induction ls with
  | nil => exact ⟨[], rfl, by simp⟩
  | cons l ls ih =>
    obtain ⟨hl, hls⟩ := LabelsOk.cons.mp h
    obtain ⟨body, hb, hz⟩ := ih hls fun l' hl' => h0 l' (List.mem_cons_of_mem _ hl')
    refine ⟨UInt8.ofNat l.length :: (l ++ body), by simp [wire, hb], ?_⟩
    have hlen : UInt8.ofNat l.length ≠ 0 := by
      intro he
      have := toNat_lengthByte hl.2
      rw [he, show (0 : UInt8).toNat = 0 from rfl] at this
      omega
    simp only [List.mem_cons, List.mem_append, not_or]
    exact ⟨hlen.symm, h0 l List.mem_cons_self, hz⟩

theorem drop_slice_append {pre : List UInt8} (mid post : List UInt8) {pos : Nat}
    (h : pre.length = pos) :
    (pre ++ mid ++ post).drop pos = mid ++ post ∧
      slice (pre ++ mid ++ post) pos mid.length = mid := by
  have hd : (pre ++ mid ++ post).drop pos = mid ++ post := by
    rw [List.append_assoc, ← h, List.drop_left]
  exact ⟨hd, by rw [slice, hd, List.take_left]⟩

section
variable {H : Type} (hs : WordHasher H)

/-- The parser on a question whose bytes up to the first zero are `body`. -/
theorem questionAt_of_body {f pre body rest : List UInt8} {pos : Nat} {qtype qclass : UInt16}
    {hash : H}
    (hf : f = pre ++ (body ++ [0]) ++ (be16Bytes qtype ++ be16Bytes qclass ++ rest))
    (hpos : pre.length = pos)
    (h0 : 0 ∉ body) (hlen : body.length + 1 ≤ MAX_QNAME_LEN) :
    questionAt hs hash f pos 0 =
      some ((words ((body ++ [0]).map toAsciiLowercase)).foldl hs.word hash, qtype, qclass,
        body.length + 1 + 4) := by
  obtain ⟨hd, hsl⟩ := drop_slice_append (body ++ [0]) (be16Bytes qtype ++ be16Bytes qclass ++ rest)
    hpos
  rw [← hf] at hd hsl
  have hsplit : f.drop pos = body ++ 0 :: (be16Bytes qtype ++ be16Bytes qclass ++ rest) := by
    rw [hd, List.append_assoc, List.singleton_append]
  have hrun : nonzeroRun f pos = body.length := nonzeroRun_of_split hsplit h0
  have hfl : f.length = pos + body.length + 1 + 4 + rest.length := by
    rw [hf]
    simp only [List.length_append, List.length_singleton, length_be16Bytes]
    omega
  have hqt : slice f (pos + body.length + 1) 2 = be16Bytes qtype := by
    rw [hf, List.append_assoc _ (be16Bytes qclass), ← List.append_assoc _ (be16Bytes qtype)]
    exact (drop_slice_append (be16Bytes qtype) _ (by simp; omega)).2
  have hqc : slice f (pos + body.length + 3) 2 = be16Bytes qclass := by
    rw [hf, ← List.append_assoc _ _ rest, ← List.append_assoc _ (be16Bytes qtype)]
    exact (drop_slice_append (be16Bytes qclass) _ (by simp; omega)).2
  unfold questionAt
  rw [hrun, if_pos (by omega), be16At_eq_of_slice hqt, be16At_eq_of_slice hqc,
    show slice f pos (body.length + 1) = body ++ [0] by simpa using hsl]
  simp only [Nat.zero_add]

/-- Any spelling of a name whose labels hold no zero byte hashes to the name's key. -/
theorem questionAt_of_name {f pre rest : List UInt8} {pos : Nat} {qtype qclass : UInt16}
    {name spelled : Name} (hsp : spelled.EqIgnoreCase name) (h0 : ∀ l ∈ name.labels, 0 ∉ l)
    (hf : f = pre ++ wire spelled.labels ++ (be16Bytes qtype ++ be16Bytes qclass ++ rest))
    (hpos : pre.length = pos) :
    questionAt hs hs.basis f pos 0 =
      some ((makeCacheKeyWith hs name qtype qclass).nameHash, qtype, qclass,
        (wire name.labels).length + 4) := by
  have h0' : ∀ l ∈ spelled.labels, 0 ∉ l := by
    intro l hl hz
    have hmem : l.lower ∈ name.labels.map Label.lower := hsp ▸ List.mem_map_of_mem hl
    obtain ⟨l', hl', he⟩ := List.mem_map.mp hmem
    have hz' : (0 : UInt8) ∈ l'.lower := by
      rw [he]
      exact List.mem_map.mpr ⟨0, hz, rfl⟩
    obtain ⟨b, hb, hb0⟩ := List.mem_map.mp hz'
    exact h0 l' hl' (toAsciiLowercase_eq_zero.mp hb0 ▸ hb)
  obtain ⟨body, hw, hz⟩ := wire_body spelled.labels_ok h0'
  have hlen := spelled.wire_le
  have hsame : (wire name.labels).length = (wire spelled.labels).length := by
    rw [← length_wire_map_lower, ← length_wire_map_lower spelled.labels, hsp]
  rw [hw] at hf hlen hsame
  simp only [List.length_append, List.length_singleton, Name.MAX_LENGTH] at hlen hsame
  rw [questionAt_of_body hs hf hpos hz hlen, makeCacheKeyWith_nameHash, ← hsp,
    ← map_lower_wire spelled.labels_ok, hw, hsame]
  rfl

end

/-- **Kernel and userspace compute the same cache key.** -/
theorem parseDnsQuestion_key {name spelled : Name} (hsp : spelled.EqIgnoreCase name)
    (h0 : ∀ l ∈ name.labels, 0 ∉ l) (qtype qclass : UInt16) {f pre rest : List UInt8}
    {dnsOffset : Nat}
    (hf : f = pre ++ wire spelled.labels ++ (be16Bytes qtype ++ be16Bytes qclass ++ rest))
    (hpre : pre.length = dnsOffset + DNS_HDR_LEN) :
    parseDnsQuestion f dnsOffset =
      .ok (some ((makeCacheKey name qtype qclass).nameHash, qtype, qclass,
        (wire name.labels).length + 4)) ∧
    ∀ config q, parseQuery fnv1a config f = .ok (some q) → q.dnsOffset = dnsOffset →
      q.key = makeCacheKey name qtype qclass := by
  have hq := questionAt_of_name fnv1a hsp h0 hf hpre
  refine ⟨?_, ?_⟩
  · have hle : dnsOffset + DNS_HDR_LEN ≤ f.length := by
      rw [hf, ← hpre]
      simp only [List.length_append]
      omega
    unfold parseDnsQuestion
    rw [parseDnsQuestionWith_eq fnv1a f hle, hq]
    rfl
  · intro config q hp hd
    rw [parseQuery_eq] at hp
    obtain ⟨-, -, -, -, hdns, hqa⟩ := queryOf_eq_some fnv1a (Except.ok.inj hp)
    rw [← hdns, hd, hq] at hqa
    simp only [Option.some.injEq, Prod.mk.injEq] at hqa
    obtain ⟨e1, e2, e3, -⟩ := hqa
    unfold DnsQuery.key
    rw [← e1, ← e2, ← e3]
    rfl

theorem parseDnsQuestion_key_sample :
    parseDnsQuestion sampleQuery 42 =
      .ok (some ((makeCacheKey sampleName 1 1).nameHash, 1, 1, 3 + 4)) ∧
    ∀ config q, parseQuery fnv1a config sampleQuery = .ok (some q) → q.dnsOffset = 42 →
      q.key = makeCacheKey sampleName 1 1 := by
  have hsp : Name.EqIgnoreCase ⟨[[0x41]], by decide, by decide⟩ sampleName := rfl
  have hf : sampleQuery = sampleQuery.take 54 ++ wire [[0x41]] ++
    (be16Bytes 1 ++ be16Bytes 1 ++ []) := by decide
  exact parseDnsQuestion_key hsp (by decide) 1 1 hf rfl

/-! ## What a matching key says of the frame -/

/-- The bytes at `pos` read as question `e`, up to ASCII case, of length `questionLen`. -/
def ReadsAs (f : Frame) (pos : Nat) (e : Question) (questionLen : Nat) : Prop :=
  ∃ ls rest, readQname (f.drop pos) = some (ls, rest) ∧
    ls.map Label.lower = e.name.labels.map Label.lower ∧
    4 ≤ rest.length ∧ be16At rest 0 = e.qtype ∧ be16At rest 2 = e.qclass ∧
    questionLen = (wire e.name.labels).length + 4

/-- With entries stored for the questions in `stored`, every frame that finds one holds
the question it was stored for; the hash is idealised to the words it folds. -/
def HitsOwnQuestion (stored : Set Question) : Prop :=
  ∀ (env : XdpEnv (List UInt64)) (f : Frame) (q : DnsQuery (List UInt64)) (v : CacheValue)
    (e : Question),
    parseQuery stream env.config f = .ok (some q) → env.cache q.key = some v →
    e ∈ stored → e.key stream = q.key →
    ReadsAs f (q.dnsOffset + DNS_HDR_LEN) e q.questionLen

/-- A name whose wire form ends in more zeros than the root's, all of them in one word
and none before: its last label ends in zero bytes. -/
def Aliased (name : Name) : Prop :=
  ∃ body z, wire name.labels = body ++ List.replicate (z + 1) 0 ∧ 1 ≤ z ∧ 0 ∉ body ∧
    body.length / 8 = (body.length + z) / 8

theorem eq_append_zeros_of_map_lower {w b : List UInt8} {m : Nat}
    (h : w.map toAsciiLowercase = b ++ List.replicate m 0) :
    ∃ b', w = b' ++ List.replicate m 0 ∧ b'.map toAsciiLowercase = b := by
  obtain ⟨b', t, rfl, hb, ht⟩ := List.map_eq_append_iff.mp h
  refine ⟨b', ?_, hb⟩
  congr 1
  rw [List.eq_replicate_iff] at ht ⊢
  refine ⟨by simpa using ht.1, fun x hx => ?_⟩
  exact toAsciiLowercase_eq_zero.mp (ht.2 _ (List.mem_map_of_mem hx))

/-- Bytes that lowercase to a name's wire form are the wire form of a spelling of it. -/
theorem wire_of_map_lower {ls : List Label} (h : LabelsOk ls) {s : List UInt8}
    (hs : s.map toAsciiLowercase = wire (ls.map Label.lower)) :
    ∃ ls', s = wire ls' ∧ LabelsOk ls' ∧ ls'.map Label.lower = ls.map Label.lower := by
  induction ls generalizing s with
  | nil =>
    obtain ⟨b, hb, rfl⟩ : ∃ b, toAsciiLowercase b = 0 ∧ s = [b] := by
      simpa [wire, List.map_eq_singleton_iff, eq_comm, and_comm] using hs
    exact ⟨[], by rw [toAsciiLowercase_eq_zero.mp hb]; rfl, LabelsOk.nil, rfl⟩
  | cons l ls ih =>
    obtain ⟨hl, hls⟩ := LabelsOk.cons.mp h
    rw [List.map_cons, wire, Label.length_lower] at hs
    obtain ⟨b, s, rfl, hb, hs⟩ := List.map_eq_cons_iff.mp hs
    obtain ⟨l', s, rfl, hl', hs⟩ := List.map_eq_append_iff.mp hs
    obtain ⟨ls', rfl, hok, hlow⟩ := ih hls hs
    have hlen : l'.length = l.length := by
      have := congrArg List.length hl'
      simpa using this
    have hpre := toNat_lengthByte hl.2
    have hb' : b = UInt8.ofNat l'.length := by
      rw [hlen, ← hb, eq_of_toAsciiLowercase_le (by rw [hb, hpre]; exact hl.2)]
    refine ⟨l' :: ls', by rw [wire, hb'], LabelsOk.cons.mpr ⟨by omega, hok⟩, ?_⟩
    rw [List.map_cons, List.map_cons, hlow]
    exact congrArg (· :: _) hl'

/-- What the parser accepted: bytes without a zero, a zero, and the two words. -/
theorem questionAt_split {H : Type} (hs : WordHasher H) {hash : H} {f : Frame} {pos : Nat}
    {r : H × UInt16 × UInt16 × Nat} (h : questionAt hs hash f pos 0 = some r) :
    ∃ body rest, f.drop pos = (body ++ [0]) ++ (be16Bytes r.2.1 ++ be16Bytes r.2.2.1 ++ rest) ∧
      0 ∉ body ∧
      r.1 = (words ((body ++ [0]).map toAsciiLowercase)).foldl hs.word hash ∧
      r.2.2.2 = body.length + 1 + 4 := by
  have hbound := questionAt_bounds hs h
  simp only [questionAt] at h
  split at h
  swap
  · cases h
  next hc =>
  have hbody : 0 ∉ (f.drop pos).takeWhile (· ≠ 0) := by
    intro h0
    have := List.all_eq_true.mp (List.all_takeWhile (p := fun b : UInt8 => decide (b ≠ 0))) 0 h0
    simp at this
  have hrun : ((f.drop pos).takeWhile (· ≠ 0)).length = nonzeroRun f pos := rfl
  have hsplit := List.takeWhile_append_dropWhile (p := fun b : UInt8 => decide (b ≠ 0))
    (l := f.drop pos)
  have hne : (f.drop pos).dropWhile (· ≠ 0) ≠ [] := by
    intro he
    have := congrArg List.length hsplit
    rw [he, List.append_nil, hrun, List.length_drop] at this
    omega
  obtain ⟨b, tail, htail⟩ := List.exists_cons_of_ne_nil hne
  have hb : b = 0 := by
    have := List.head_dropWhile_not (fun b : UInt8 => decide (b ≠ 0)) hne
    simp only [htail, List.head_cons, decide_eq_false_iff_not, not_not] at this
    exact this
  generalize hbd : (f.drop pos).takeWhile (· ≠ 0) = body at *
  rw [htail, hb] at hsplit
  have hdrop : f.drop pos = (body ++ [0]) ++ tail := by rw [← hsplit]; simp
  have htake : slice f pos (nonzeroRun f pos + 1) = body ++ [0] := by
    unfold slice
    rw [hdrop, ← hrun, ← List.length_singleton (a := (0 : UInt8)), ← List.length_append,
      List.take_left]
  have htail' : f.drop (pos + nonzeroRun f pos + 1) = tail := by
    rw [Nat.add_assoc, ← List.drop_drop, hdrop, ← hrun, ← List.length_singleton (a := (0 : UInt8)),
      ← List.length_append, List.drop_left]
  have hwords : tail = be16Bytes (be16At f (pos + nonzeroRun f pos + 1)) ++
      be16Bytes (be16At f (pos + nonzeroRun f pos + 3)) ++ tail.drop 4 := by
    rw [← slice_two (by omega), ← slice_two (by omega), ← slice_append f _ 2 2, slice, htail',
      List.take_append_drop]
  cases h
  refine ⟨body, tail.drop 4, ?_, hbody, by rw [htake], by simp only; omega⟩
  rw [hdrop]
  exact congrArg _ hwords

section Converse
variable {env : XdpEnv (List UInt64)} {f : Frame} {q : DnsQuery (List UInt64)} {e : Question}

/-- A frame that finds the entry of a name that is not aliased holds its question. -/
theorem readsAs_of_not_aliased (hp : parseQuery stream env.config f = .ok (some q))
    (hk : e.key stream = q.key) (hna : ¬ Aliased e.name) :
    ReadsAs f (q.dnsOffset + DNS_HDR_LEN) e q.questionLen := by
  rw [parseQuery_eq] at hp
  obtain ⟨-, -, -, -, hdns, hqa⟩ := queryOf_eq_some stream (Except.ok.inj hp)
  obtain ⟨body, rest, hdrop, h0, hhash, hlen⟩ := questionAt_split stream hqa
  simp only at hdrop hhash hlen
  obtain ⟨htype, hclass⟩ := qtypeClass_inj (congrArg CacheKey.qtypeClass hk)
  have hw : words ((body ++ [0]).map toAsciiLowercase) =
    words (wire (e.name.labels.map Label.lower)) := by
    have hn := congrArg CacheKey.nameHash hk
    rw [Question.key, makeCacheKeyWith_nameHash, run_stream] at hn
    rw [hn]
    show _ = q.nameHash
    rw [hhash]
    exact (run_stream _).symm
  -- the stored name is the hashed bytes and possibly more zeros
  have hzero : toAsciiLowercase 0 = 0 := rfl
  rw [List.map_append, List.map_singleton, hzero] at hw
  have h0' : 0 ∉ body.map toAsciiLowercase := by
    intro hm
    obtain ⟨b, hb, hb0⟩ := List.mem_map.mp hm
    exact h0 (toAsciiLowercase_eq_zero.mp hb0 ▸ hb)
  obtain ⟨z, hz⟩ := eq_append_zeros_of_words_eq h0' (wire_eq_append_zero _) hw
  rw [hz] at hw
  have hcount := (words_append_zeros _ _).mp hw
  rcases Nat.eq_zero_or_pos z with rfl | hpos
  · obtain ⟨ls, hls, hok, hlow⟩ := wire_of_map_lower e.name.labels_ok (s := body ++ [0])
      (by rw [List.map_append, hz]; rfl)
    have hlen' : (wire e.name.labels).length = body.length + 1 := by
      rw [← length_wire_map_lower, hz]
      simp
    refine ⟨ls, be16Bytes q.qtype ++ be16Bytes q.qclass ++ rest, ?_, hlow, by simp; omega, ?_,
      ?_, by omega⟩
    · rw [hdns, hdrop, hls, readQname_wire hok]
    · rw [htype]
      exact be16At_eq_of_slice (by simp [slice, be16Bytes])
    · rw [hclass]
      exact be16At_eq_of_slice (by simp [slice, be16Bytes])
  · refine absurd ?_ hna
    rw [← map_lower_wire e.name.labels_ok] at hz
    obtain ⟨body', hw', hb'⟩ := eq_append_zeros_of_map_lower hz
    refine ⟨body', z, hw', hpos, ?_, ?_⟩
    · intro hm
      exact h0' (hb' ▸ List.mem_map.mpr ⟨0, hm, hzero⟩)
    · rwa [← hb', List.length_map] at hcount

end Converse

/-- The headers of a query to port 53, with the bytes of its two length fields. -/
def queryHeaders (totHi totLo lenHi lenLo : UInt8) : List UInt8 :=
  [2, 0, 0, 0, 0, 1, 2, 0, 0, 0, 0, 2, 8, 0,
   0x45, 0, totHi, totLo, 0, 7, 0, 0, 64, 17, 0, 0, 10, 0, 0, 2, 10, 0, 0, 1,
   0x9c, 0x40, 0, 53, lenHi, lenLo, 0, 0,
   0x12, 0x34, 0x01, 0x00, 0, 1, 0, 0, 0, 0, 0, 0]

theorem dnsOffset_queryHeaders (a b c d : UInt8) (question : List UInt8) :
    dnsOffset (queryHeaders a b c d ++ question) = 42 := by
  have hihl : byteAt (queryHeaders a b c d ++ question) ETH_HDR_LEN = 0x45 := rfl
  unfold dnsOffset
  rw [udpOffset, ipHdrLen, hihl]
  decide

theorem headersOk_queryHeaders {a b c d : UInt8} {question : List UInt8}
    (hlen : (be16 c d).toNat = 20 + question.length) (h : question.length ≤ 1480) :
    HeadersOk (some 53) (queryHeaders a b c d ++ question) := by
  have hdns := dnsOffset_queryHeaders a b c d question
  have hoff : udpOffset (queryHeaders a b c d ++ question) = 34 := by
    simp only [dnsOffset, UDP_HDR_LEN] at hdns
    omega
  have hudp : udpLen (queryHeaders a b c d ++ question) = 20 + question.length := by
    unfold udpLen
    rw [hoff]
    exact hlen
  constructor
  case etherType => exact (by decide : be16 8 0 = ETH_P_IP)
  case protocol => rfl
  case ihl =>
    simp only [udpOffset, ETH_HDR_LEN] at hoff
    simp only [IP_HDR_LEN]
    omega
  case port =>
    rw [hoff]
    exact congrArg some (by decide : 53 = be16 0 53)
  case le_udpLen => simp only [hudp, UDP_HDR_LEN]; omega
  case udpLen_le => simp only [hudp, MAX_UDP_DNS_LEN]; omega
  case length =>
    rw [hdns, List.length_append]
    exact Nat.le_add_right 54 _
  case query =>
    rw [hdns]
    exact (by decide : be16 1 0 &&& 0x8000 = 0)
  case qdcount =>
    rw [hdns]
    exact (by decide : be16 0 1 = 1)

/-- A query to port 53 with any bytes as its question. -/
def queryFrame (question : List UInt8) : Frame :=
  let tot := UInt16.ofNat (40 + question.length)
  let len := UInt16.ofNat (20 + question.length)
  queryHeaders (tot >>> 8).toUInt8 (tot &&& 0xFF).toUInt8 (len >>> 8).toUInt8
    (len &&& 0xFF).toUInt8 ++ question

theorem headersOk_queryFrame {question : List UInt8} (h : question.length ≤ 1480) :
    HeadersOk (some 53) (queryFrame question) := by
  refine headersOk_queryHeaders ?_ h
  rw [be16_of_be16Bytes, UInt16.toNat_ofNat_of_lt' (by simp only [UInt16.size]; omega)]

/-- A stored name and the bytes the kernel cuts it to have one word stream. -/
theorem Aliased.words_eq {name : Name} {body : List UInt8} {z : Nat}
    (hw : wire name.labels = body ++ List.replicate (z + 1) 0)
    (hcount : body.length / 8 = (body.length + z) / 8) :
    words (wire (name.labels.map Label.lower)) = words ((body ++ [0]).map toAsciiLowercase) := by
  rw [← map_lower_wire name.labels_ok, hw, List.map_append, List.map_append, List.map_replicate,
    List.map_singleton]
  exact ((words_append_zeros _ _).mpr (by simpa using hcount)).symm

/-- The frame that hits the entry of an aliased name has as its question the name's
wire form cut at the first zero. -/
theorem not_hitsOwnQuestion_of_aliased {stored : Set Question} {e : Question} (he : e ∈ stored)
    (ha : Aliased e.name) : ¬ HitsOwnQuestion stored := by
  intro hown
  obtain ⟨body, z, hw, hz, h0, hcount⟩ := ha
  have hwl := congrArg List.length hw
  have hle := e.name.wire_le
  simp only [List.length_append, List.length_replicate, Name.MAX_LENGTH] at hwl hle
  generalize hqb : body ++ [0] ++ (be16Bytes e.qtype ++ be16Bytes e.qclass ++ []) = question
  have hok : HeadersOk (some 53) (queryFrame question) :=
    headersOk_queryFrame (by rw [← hqb]; simp; omega)
  have hdns : dnsOffset (queryFrame question) = 42 := dnsOffset_queryHeaders ..
  have hq : questionAt stream stream.basis (queryFrame question) (42 + DNS_HDR_LEN) 0 = _ :=
    questionAt_of_body stream (by rw [List.append_assoc, hqb]; rfl) rfl h0
      (by simp only [MAX_QNAME_LEN]; omega)
  generalize queryFrame question = f at hok hdns hq
  have hparse := parseQuery_eq stream (some 53) f
  rw [queryOf, if_pos hok, hdns, hq] at hparse
  have hkey : e.key stream = (DnsQuery.mk (ipHdrLen f) (udpOffset f) (udpLen f - UDP_HDR_LEN) 42
      (stream.run (words ((body ++ [0]).map toAsciiLowercase))) e.qtype e.qclass
      (body.length + 1 + 4)).key := by
    rw [← Aliased.words_eq hw hcount, DnsQuery.key, Question.key, makeCacheKeyWith, fnv1a64With_eq,
      keyWire_eq]
  obtain ⟨-, -, -, -, -, -, -, hlen⟩ := hown
    { config := some 53, cache := fun _ => some (.newNegative [] 1), now := 0
      adjustTail := AdjustTail.linux 0 }
    f _ _ e hparse rfl he hkey
  simp only at hlen
  omega

/-- **Exactly when a hit answers only the question its entry was stored for.** -/
theorem hitsOwnQuestion_iff (stored : Set Question) :
    HitsOwnQuestion stored ↔ ∀ e ∈ stored, ¬ Aliased e.name := by
  constructor
  · intro hown e he ha
    exact not_hitsOwnQuestion_of_aliased he ha hown
  · intro h env f q v e hp _ he hk
    exact readsAs_of_not_aliased hp hk (h e he)

/-- The one-label name `a` followed by a zero byte. -/
def zeroLabelQuestion : Question := ⟨⟨[[0x61, 0x00]], by decide, by decide⟩, 1, 1⟩

/-- A query whose question bytes are `02 61 00 00 01 00 01`. -/
def cutQuestion : Frame := queryFrame [0x02, 0x61, 0x00, 0x00, 0x01, 0x00, 0x01]

theorem cutQuestion_hits_zeroLabelQuestion : ¬ HitsOwnQuestion {zeroLabelQuestion} := by
  intro hown
  let env : XdpEnv (List UInt64) :=
    { config := some 53, cache := fun _ => some (.newNegative [] 1), now := 0
      adjustTail := AdjustTail.linux 0 }
  have h := hown env cutQuestion ⟨20, 34, 19, 42, [0x006102], 1, 1, 7⟩
    (.newNegative [] 1) zeroLabelQuestion
    (by decide +kernel) rfl rfl (by decide +kernel)
  obtain ⟨-, -, -, -, -, -, -, hlen⟩ := h
  revert hlen
  decide

end DoggyDns.Ebpf
