import DoggyDns.Ebpf.Invocation

/-!
# Verdicts and counters

What the stack sees of an invocation: the verdict, the counters and the frame.
A passed packet is the packet received, a dropped one had a UDP length that
overruns it, and each verdict moves at most one counter.
-/

namespace DoggyDns.Ebpf

open Bytes WordHash

/-! ## Counters -/

/-- The counter an outcome belongs to. -/
def XdpStats.get (s : XdpStats) : Outcome → UInt64
  | .hit => s.hit
  | .negativeHit => s.negativeHit
  | .miss => s.miss
  | .expired => s.expired
  | .drop => s.drop

/-- The slot of the CPU the program runs on. -/
def slot (stats : Vector XdpStats 1) : XdpStats := stats.get ⟨0, Nat.one_pos⟩

/-- Counter `o` of the CPU's slot went up by one and no other counter moved. -/
def Incremented (stats stats' : Vector XdpStats 1) (o : Outcome) : Prop :=
  ∀ o', (slot stats').get o' = if o' = o then (slot stats).get o' + 1 else (slot stats).get o'

theorem XdpStats.get_bump (s : XdpStats) (o o' : Outcome) :
    (s.bump o).get o' = if o' = o then s.get o' + 1 else s.get o' := by
  cases o <;> cases o' <;> rfl

theorem incremented_record (stats : Vector XdpStats 1) (o : Outcome) :
    Incremented stats (record stats o) o := by
  intro o'
  have hslot : stats[0]? = some (slot stats) := Vector.getElem?_eq_getElem _
  have h : slot (record stats o) = (slot stats).bump o := by
    unfold record
    rw [hslot]
    exact Vector.getElem_set_self _
  rw [h, XdpStats.get_bump]

/-! ## Verdicts -/

/-- The verdict and the counter of a result; an error drops the packet. -/
def verdict : Except Unit (XdpAction × Option Outcome) → XdpAction × Option Outcome
  | .ok result => result
  | .error () => (.drop, some .drop)

/-- The counters after an invocation. -/
def counted (stats : Vector XdpStats 1) : Option Outcome → Vector XdpStats 1
  | some outcome => record stats outcome
  | none => stats

section
variable {H : Type} {hs : WordHasher H} {env : XdpEnv H} {f g : Frame}
  {r : Except Unit (XdpAction × Option Outcome)}

theorem dnsXdpWith_ran (hs : WordHasher H) (env : XdpEnv H) (stats : Vector XdpStats 1)
    (f : Frame) :
    ∃ r g, Ran hs env f r g ∧
      dnsXdpWith hs env stats f = .ok ((verdict r).1, counted stats (verdict r).2, g) := by
  obtain ⟨r, g, he, hr⟩ := tryDnsXdp_ran hs env f
  refine ⟨r, g, hr, ?_⟩
  unfold dnsXdpWith
  rw [he]
  simp only [bind, Except.bind]
  rcases r with ⟨⟩ | ⟨a, _ | o⟩ <;> rfl

theorem lookupEntry_error {env : XdpEnv H} {q : DnsQuery H} {o : Outcome}
    (h : lookupEntry env q = .error o) : o = .miss ∨ o = .expired := by
  unfold lookupEntry at h
  split at h
  · cases h
    exact .inl rfl
  · split at h
    · cases h
      exact .inr rfl
    · cases h

theorem lookupEntry_eq_ok {q : DnsQuery H} {entry : CacheValue}
    (h : lookupEntry env q = .ok entry) :
    env.cache q.key = some entry ∧ env.now < entry.expiresAt := by
  unfold lookupEntry at h
  split at h
  · cases h
  next e he =>
  split at h
  · cases h
  next hlt =>
  cases h
  exact ⟨he, UInt64.not_le.mp hlt⟩

theorem Ran.pass (h : Ran hs env f r g) (hp : (verdict r).1 = .pass) :
    g = f ∧ ((verdict r).2 = none ∨ (verdict r).2 = some .miss ∨
      (verdict r).2 = some .expired) := by
  cases h with
  | ignored => exact ⟨rfl, .inl rfl⟩
  | unanswered hq ho =>
    obtain rfl | rfl := lookupEntry_error ho
    · exact ⟨rfl, .inr (.inl rfl)⟩
    · exact ⟨rfl, .inr (.inr rfl)⟩
  | poisoned => exact ⟨rfl, .inl rfl⟩
  | notResized => exact ⟨rfl, .inl rfl⟩
  | overrun => cases hp
  | answered => cases hp

theorem Ran.counts (h : Ran hs env f r g) (hp : (verdict r).1 ≠ .pass) :
    ∃ o, (verdict r).2 = some o := by
  cases h with
  | ignored | unanswered | poisoned | notResized => exact absurd rfl hp
  | overrun | answered => exact ⟨_, rfl⟩

/-- A live hit is determined by the frame and the environment. -/
theorem LiveHit.unique {q q' : DnsQuery H} {entry entry' : CacheValue} {n n' : Nat}
    (h : LiveHit hs env f q entry n) (h' : LiveHit hs env f q' entry' n') :
    q = q' ∧ entry = entry' ∧ n = n' := by
  obtain ⟨hp, hl, ha⟩ := h
  obtain ⟨hp', hl', ha'⟩ := h'
  have hq : q = q' := Option.some.inj (Except.ok.inj (hp ▸ hp'))
  subst hq
  have he : entry = entry' := Except.ok.inj (hl ▸ hl')
  subst he
  exact ⟨rfl, rfl, Option.some.inj (ha ▸ ha')⟩

/-- After a hit whose resize succeeds, only the query's claimed length decides. -/
theorem Ran.of_resized (h : Ran hs env f r g) {q : DnsQuery H} {entry : CacheValue} {n : Nat}
    {g' : Frame}
    (hit : LiveHit hs env f q entry n) (hg : resize env f q n = some g') :
    (f.length < q.dnsOffset + q.oldDnsLen ∧ r = .error ()) ∨
    (q.dnsOffset + q.oldDnsLen ≤ f.length ∧ (verdict r).1 = .tx ∧
      g = replyFrame f g' q entry n) := by
  cases h with
  | ignored hq =>
    rw [hit.parsed] at hq
    cases hq
  | unanswered hq ho =>
    rw [hit.parsed] at hq
    cases hq
    rw [hit.live] at ho
    cases ho
  | poisoned hq he hn =>
    rw [hit.parsed] at hq
    cases hq
    rw [hit.live] at he
    cases he
    rw [hit.admissible] at hn
    cases hn
  | notResized hit' hg' =>
    obtain ⟨rfl, rfl, rfl⟩ := hit.unique hit'
    rw [hg] at hg'
    cases hg'
  | overrun hit' hg' hlen =>
    obtain ⟨rfl, rfl, rfl⟩ := hit.unique hit'
    exact .inl ⟨hlen, rfl⟩
  | answered hit' hg' hlen =>
    obtain ⟨rfl, rfl, rfl⟩ := hit.unique hit'
    rw [hg] at hg'
    cases hg'
    exact .inr ⟨hlen, rfl, rfl⟩

/-- Dropping and transmitting happen only after a successful resize. -/
theorem Ran.resized (h : Ran hs env f r g) (hp : (verdict r).1 ≠ .pass) :
    ∃ q entry n g', LiveHit hs env f q entry n ∧ resize env f q n = some g' := by
  cases h with
  | ignored | unanswered | poisoned | notResized => exact absurd rfl hp
  | overrun hit hg => exact ⟨_, _, _, _, hit, hg⟩
  | answered hit hg => exact ⟨_, _, _, _, hit, hg⟩

end

/-- **Pass leaves the packet intact, and drop has exactly one cause.** -/
theorem dnsXdp_verdicts (env : XdpEnv UInt64) (stats : Vector XdpStats 1) (f : Frame) :
    ∃ action stats' f', dnsXdp env stats f = .ok (action, stats', f') ∧
      (action = .pass → f' = f ∧
        (stats' = stats ∨ Incremented stats stats' .miss ∨ Incremented stats stats' .expired)) ∧
      (action = .drop ↔ ∃ q entry n g, LiveHit fnv1a env f q entry n ∧ resize env f q n = some g ∧
        f.length < dnsOffset f + (udpLen f - UDP_HDR_LEN)) ∧
      (action = .tx ↔ ∃ q entry n g, LiveHit fnv1a env f q entry n ∧ resize env f q n = some g ∧
        dnsOffset f + (udpLen f - UDP_HDR_LEN) ≤ f.length) ∧
      -- past the length check, neither the payload nor the headers return an error
      (∀ q entry n g, LiveHit fnv1a env f q entry n → resize env f q n = some g →
        q.dnsOffset + n ≤ g.length →
        ∃ h, (if entry.isNegative then writeNxdomain g q.dnsOffset
            else writePositive g q.dnsOffset entry entry.respLen.toNat (be16At f q.dnsOffset)) =
              .ok (.ok (), h) ∧
          finalizeHeaders h q.ipHdrLen q.udpOffset n = .ok (.ok (), f')) ∧
      (stats' = stats ∨ ∃ o, Incremented stats stats' o) ∧
      (action ≠ .pass → ∃ o, Incremented stats stats' o) := by
  obtain ⟨r, g, hr, he⟩ := dnsXdpWith_ran fnv1a env stats f
  have hcount : ∀ o, (verdict r).2 = some o →
    Incremented stats (counted stats (verdict r).2) o := by
    intro o ho
    rw [ho]
    exact incremented_record stats o
  have hsame : (verdict r).2 = none → counted stats (verdict r).2 = stats := by
    intro ho
    rw [ho]
    rfl
  -- a live hit that was resized drops or transmits, by the claimed length
  have hcases : ∀ {q entry n g'}, LiveHit fnv1a env f q entry n → resize env f q n = some g' →
      (f.length < dnsOffset f + (udpLen f - UDP_HDR_LEN) ∧ (verdict r).1 = .drop) ∨
      (dnsOffset f + (udpLen f - UDP_HDR_LEN) ≤ f.length ∧ (verdict r).1 = .tx ∧
        g = replyFrame f g' q entry n) := by
    intro q entry n g' hit hg
    obtain ⟨-, -, hold, hdns⟩ := hit.layout
    rw [← hold, ← hdns]
    rcases hr.of_resized hit hg with ⟨hlen, rfl⟩ | h
    · exact .inl ⟨hlen, rfl⟩
    · exact .inr h
  refine ⟨_, _, _, he, ?_, ?_, ?_, ?_, ?_, ?_⟩
  · intro hp
    obtain ⟨hg, ho | ho | ho⟩ := hr.pass hp
    · exact ⟨hg, .inl (hsame ho)⟩
    · exact ⟨hg, .inr (.inl (hcount _ ho))⟩
    · exact ⟨hg, .inr (.inr (hcount _ ho))⟩
  · constructor
    · intro hd
      obtain ⟨q, entry, n, g', hit, hg⟩ := hr.resized (by rw [hd]; decide)
      rcases hcases hit hg with ⟨hlen, -⟩ | ⟨-, ht, -⟩
      · exact ⟨q, entry, n, g', hit, hg, hlen⟩
      · rw [hd] at ht
        cases ht
    · rintro ⟨q, entry, n, g', hit, hg, hlen⟩
      rcases hcases hit hg with ⟨-, hd⟩ | ⟨hlen', -⟩
      · exact hd
      · omega
  · constructor
    · intro ht
      obtain ⟨q, entry, n, g', hit, hg⟩ := hr.resized (by rw [ht]; decide)
      rcases hcases hit hg with ⟨-, hd⟩ | ⟨hlen, -⟩
      · rw [ht] at hd
        cases hd
      · exact ⟨q, entry, n, g', hit, hg, hlen⟩
    · rintro ⟨q, entry, n, g', hit, hg, hlen⟩
      rcases hcases hit hg with ⟨hlen', -⟩ | ⟨-, ht, -⟩
      · omega
      · exact ht
  · intro q entry n g' hit hg hfit
    refine ⟨_, hit.write_ok hfit, ?_⟩
    obtain ⟨-, -, hold, hdns⟩ := hit.layout
    rcases hcases hit hg with ⟨hlen, -⟩ | ⟨-, -, hgr⟩
    · have := (resize_fits_iff hg).mp hfit
      omega
    · rw [hgr]
      exact hit.finalize_ok hfit
  · cases ho : (verdict r).2 with
    | none => exact .inl rfl
    | some o => exact .inr ⟨o, ho ▸ hcount o ho⟩
  · intro hp
    obtain ⟨o, ho⟩ := hr.counts hp
    exact ⟨o, hcount o ho⟩

end DoggyDns.Ebpf
