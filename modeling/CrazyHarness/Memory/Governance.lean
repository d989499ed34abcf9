import CrazyHarness.Lib.Run
import CrazyHarness.Memory.Store

/-! # Governed memory

What holds of the candidates after any calls of the store.

* `Unambiguous`: of two approved memories of one slot and scope, one has expired by the last reading of the
  clock; so at no later moment are both in force.
* `Linked`: links from a memory to the one it supersedes are mutual and go to an older version.  `propose`
  takes a candidate with links as it is, which is what breaks it.
* `governed_iff`: everything the store promises holds after any calls, exactly as long as no candidate is
  proposed with links. -/

namespace CrazyHarness

open Lib

/-- The moment is not before the last of the first `bound` readings. -/
def Clock.Reached (clock : Clock) (bound : ℕ) (moment : DateTime) : Prop :=
  ∀ i, i + 1 = bound → (clock.reading i).instant ≤ moment.instant

theorem Clock.reading_le (clock : Clock) {i j : ℕ} (h : i ≤ j) :
    (clock.reading i).instant ≤ (clock.reading j).instant := by
  induction h with
  | refl => exact le_rfl
  | step _ ih => exact ih.trans (clock.mono _)

/-- What has expired has expired at every later moment. -/
theorem MemoryCandidate.ExpiredBefore.expiredAt {candidate : MemoryCandidate} {clock : Clock} {bound : ℕ}
    (h : candidate.ExpiredBefore clock bound) {moment : DateTime} (hmoment : clock.Reached bound moment) :
    candidate.ExpiredAt moment := by
  obtain ⟨i, hi, expiry, hexpiry, hle⟩ := h
  refine ⟨expiry, hexpiry, hle.trans ?_⟩
  obtain ⟨last, rfl⟩ := Nat.exists_eq_add_one_of_ne_zero (Nat.ne_of_gt (Nat.zero_lt_of_lt hi))
  exact (clock.reading_le (Nat.le_of_lt_succ hi)).trans (hmoment last rfl)

/-- The statuses after which nothing changes. -/
def MemoryStatus.Final (status : MemoryStatus) : Prop :=
  status = .rejected ∨ status = .revoked ∨ status = .superseded

namespace Memories

variable {clock : Clock} {bound : ℕ} {memories : Memories} {stored : MemoryCandidate}

/-! ### One approved memory for a slot and scope -/

/-- Of two approved memories of one slot and scope, one has expired. -/
def Unambiguous (clock : Clock) (bound : ℕ) (memories : Memories) : Prop :=
  ∀ c ∈ memories.rows, ∀ d ∈ memories.rows, c.status = .approved → d.status = .approved →
    c.slot = d.slot → c.scope = d.scope →
      c = d ∨ c.ExpiredBefore clock bound ∨ d.ExpiredBefore clock bound

theorem Unambiguous.mono (h : Unambiguous clock bound memories) {later : ℕ} (hle : bound ≤ later) :
    Unambiguous clock later memories := by
  intro c hc d hd hcs hds hslot hscope
  exact (h c hc d hd hcs hds hslot hscope).imp id (Or.imp (·.mono hle) (·.mono hle))

/-- What is stored is not approved, or what could conflict with it has expired. -/
theorem Unambiguous.upsert (h : Unambiguous clock bound memories)
    (hstored : stored.status = .approved → ∀ d ∈ memories.rows, d.candidateId ≠ stored.candidateId →
      d.status = .approved → d.slot = stored.slot → d.scope = stored.scope → d.ExpiredBefore clock bound) :
    Unambiguous clock bound (memories.upsert stored) := by
  intro c hc d hd hcs hds hslot hscope
  rcases Table.mem_upsert hc with rfl | ⟨hc', hcid⟩ <;> rcases Table.mem_upsert hd with rfl | ⟨hd', hdid⟩
  · exact .inl rfl
  · exact .inr (.inr (hstored hcs d hd' hdid hds hslot.symm hscope.symm))
  · exact .inr (.inl (hstored hds c hc' hcid hcs hslot hscope))
  · exact h c hc' d hd' hcs hds hslot hscope

theorem unambiguous_step (h : Unambiguous clock bound memories) {call : MemoryCall} {memories' : Memories}
    (hstep : MemoryStep clock bound memories call memories') : Unambiguous clock bound memories' := by
  cases hstep with
  | propose hstatus hnew =>
      refine h.upsert (fun happroved => ?_)
      rw [hstatus] at happroved
      cases happroved
  | approve hfound hstatus hconflicts =>
      refine h.upsert (fun _ d hd _ hds hslot hscope => hconflicts d hd hds hslot hscope)
  | reject hfound hstatus =>
      refine h.upsert (fun happroved => ?_)
      cases happroved
  | revoke hfound hstatus =>
      refine h.upsert (fun happroved => ?_)
      cases happroved
  | @supersede currentId _ _ _ current replacement _ hcurrent hreplacement happroved hcandidate hslot hscope
      hnewer hconflicts =>
      refine Unambiguous.upsert (h.upsert (fun hstatus => ?_)) (fun _ d hd _ hds hslot' hscope' => ?_)
      · cases hstatus
      rcases Table.mem_upsert hd with rfl | ⟨hd', hid⟩
      · cases hds
      · refine hconflicts d hd' ?_ hds hslot' hscope'
        rintro rfl
        exact hid (Table.key_of_lookup hcurrent).symm
  | getMemory candidateId moment => exact h
  | recallMemories scope slot moment => exact h

/-! ### Links -/

/-- The candidate supersedes another one. -/
def Supersedes (memories : Memories) (c d : MemoryCandidate) : Prop :=
  c ∈ memories.rows ∧ d ∈ memories.rows ∧ c.supersedes = some d.candidateId

/-- Links are mutual, and versions increase along every chain of them. -/
structure Linked (memories : Memories) : Prop where
  supersedes : ∀ c ∈ memories.rows, ∀ id, c.supersedes = some id →
    ∃ d, memories.lookup id = some d ∧ d.supersededBy = some c.candidateId
  supersededBy : ∀ c ∈ memories.rows, ∀ id, c.supersededBy = some id →
    ∃ d, memories.lookup id = some d ∧ d.supersedes = some c.candidateId
  versions : ∀ c d, Relation.TransGen (Supersedes memories) c d → d.version < c.version

/-- A memory has links only once it was approved, and one to a newer memory only once it was superseded. -/
def Unlinked (memories : Memories) : Prop :=
  ∀ c ∈ memories.rows, (c.status = .candidate → c.supersedes = none) ∧
    (c.status = .candidate ∨ c.status = .approved → c.supersededBy = none)

theorem transGen_version (h : ∀ c d, Supersedes memories c d → d.version < c.version)
    {c d : MemoryCandidate} (hchain : Relation.TransGen (Supersedes memories) c d) :
    d.version < c.version := by
  induction hchain with
  | single hcd => exact h _ _ hcd
  | tail _ hde ih => exact (h _ _ hde).trans ih

/-- Versions increase along links if they do along each of them. -/
theorem linked_of_links
    (hsupersedes : ∀ c ∈ memories.rows, ∀ id, c.supersedes = some id →
      ∃ d, memories.lookup id = some d ∧ d.supersededBy = some c.candidateId ∧ d.version < c.version)
    (hsupersededBy : ∀ c ∈ memories.rows, ∀ id, c.supersededBy = some id →
      ∃ d, memories.lookup id = some d ∧ d.supersedes = some c.candidateId) : Linked memories where
  supersedes c hc id hid := by
    obtain ⟨d, hd, hback, _⟩ := hsupersedes c hc id hid
    exact ⟨d, hd, hback⟩
  supersededBy := hsupersededBy
  versions c d := by
    refine transGen_version ?_
    rintro c d ⟨hc, hd, hlink⟩
    obtain ⟨d', hd', _, hversion⟩ := hsupersedes c hc _ hlink
    rw [Table.lookup_of_mem hd] at hd'
    obtain rfl := Option.some.inj hd'
    exact hversion

theorem Linked.version (h : Linked memories) {c d : MemoryCandidate} (hc : c ∈ memories.rows)
    (hd : memories.lookup d.candidateId = some d) (hlink : c.supersedes = some d.candidateId) :
    d.version < c.version :=
  h.versions c d (.single ⟨hc, Table.mem_of_lookup hd, hlink⟩)

/-- A new candidate without links. -/
theorem Linked.upsert_new (h : Linked memories) (hnew : memories.lookup stored.candidateId = none)
    (hsupersedes : stored.supersedes = none) (hsupersededBy : stored.supersededBy = none) :
    Linked (memories.upsert stored) := by
  have hold : ∀ id d, memories.lookup id = some d → (memories.upsert stored).lookup id = some d := by
    intro id d hd
    rw [Table.lookup_upsert_ne, hd]
    rintro rfl
    rw [hnew] at hd
    cases hd
  refine linked_of_links ?_ ?_
  · intro c hc id hid
    rcases Table.mem_upsert hc with rfl | ⟨hc', _⟩
    · rw [hsupersedes] at hid
      cases hid
    · obtain ⟨d, hd, hback⟩ := h.supersedes c hc' id hid
      have hkey := Table.key_of_lookup hd
      exact ⟨d, hold id d hd, hback, h.version hc' (hkey ▸ hd) (hkey ▸ hid)⟩
  · intro c hc id hid
    rcases Table.mem_upsert hc with rfl | ⟨hc', _⟩
    · rw [hsupersededBy] at hid
      cases hid
    · obtain ⟨d, hd, hback⟩ := h.supersededBy c hc' id hid
      exact ⟨d, hold id d hd, hback⟩

/-- A candidate that keeps its links and its version. -/
theorem Linked.upsert_same (h : Linked memories) {candidate : MemoryCandidate}
    (hfound : memories.lookup stored.candidateId = some candidate)
    (hsupersedes : stored.supersedes = candidate.supersedes)
    (hsupersededBy : stored.supersededBy = candidate.supersededBy)
    (hversion : stored.version = candidate.version) : Linked (memories.upsert stored) := by
  -- every candidate had links and version of one before
  have hrow : ∀ c ∈ (memories.upsert stored).rows, ∃ c' ∈ memories.rows, c'.candidateId = c.candidateId ∧
      c'.supersedes = c.supersedes ∧ c'.supersededBy = c.supersededBy ∧ c'.version = c.version := by
    intro c hc
    rcases Table.mem_upsert hc with rfl | ⟨hc', _⟩
    · exact ⟨candidate, Table.mem_of_lookup hfound, Table.key_of_lookup hfound, hsupersedes.symm,
        hsupersededBy.symm, hversion.symm⟩
    · exact ⟨c, hc', rfl, rfl, rfl, rfl⟩
  have hlookup : ∀ id d, memories.lookup id = some d → ∃ d', (memories.upsert stored).lookup id = some d' ∧
      d'.supersedes = d.supersedes ∧ d'.supersededBy = d.supersededBy ∧ d'.version = d.version := by
    intro id d hd
    by_cases hid : id = stored.candidateId
    · subst hid
      obtain rfl := Option.some.inj (hfound.symm.trans hd)
      exact ⟨stored, Table.lookup_upsert_self _ _, hsupersedes, hsupersededBy, hversion⟩
    · exact ⟨d, by rw [Table.lookup_upsert_ne _ _ hid, hd], rfl, rfl, rfl⟩
  refine linked_of_links ?_ ?_
  · intro c hc id hid
    obtain ⟨c', hc', hcid, hcs, _, hcv⟩ := hrow c hc
    rw [← hcs] at hid
    obtain ⟨d, hd, hback⟩ := h.supersedes c' hc' id hid
    obtain ⟨d', hd', _, hdb, hdv⟩ := hlookup id d hd
    have hkey := Table.key_of_lookup hd
    have hlt := h.version hc' (hkey ▸ hd) (hkey ▸ hid)
    refine ⟨d', hd', ?_, ?_⟩
    · rw [hdb, hback, hcid]
    · rw [hdv, ← hcv]
      exact hlt
  · intro c hc id hid
    obtain ⟨c', hc', hcid, _, hcb, _⟩ := hrow c hc
    rw [← hcb] at hid
    obtain ⟨d, hd, hback⟩ := h.supersededBy c' hc' id hid
    obtain ⟨d', hd', hds, _⟩ := hlookup id d hd
    exact ⟨d', hd', by rw [hds, hback, hcid]⟩

theorem Unlinked.upsert (h : Unlinked memories)
    (hstored : (stored.status = .candidate → stored.supersedes = none) ∧
      (stored.status = .candidate ∨ stored.status = .approved → stored.supersededBy = none)) :
    Unlinked (memories.upsert stored) := by
  intro c hc
  rcases Table.mem_upsert hc with rfl | ⟨hc', _⟩
  · exact hstored
  · exact h c hc'

/-- The current memory is linked to its replacement, which had no links. -/
theorem Linked.supersede (h : Linked memories) (hunlinked : Unlinked memories)
    {current replacement superseded promoted : MemoryCandidate}
    (hcurrent : memories.lookup superseded.candidateId = some current)
    (hreplacement : memories.lookup promoted.candidateId = some replacement)
    (happroved : current.status = .approved) (hcandidate : replacement.status = .candidate)
    (hnewer : superseded.version < promoted.version) (hversion : superseded.version = current.version)
    (hkept : superseded.supersedes = current.supersedes)
    (hforth : superseded.supersededBy = some promoted.candidateId)
    (hback : promoted.supersedes = some superseded.candidateId)
    (hnone : promoted.supersededBy = replacement.supersededBy) :
    Linked ((memories.upsert superseded).upsert promoted) := by
  have hcurrentMem := Table.mem_of_lookup hcurrent
  have hreplacementMem := Table.mem_of_lookup hreplacement
  have hcurrentBy := (hunlinked current hcurrentMem).2 (.inr happroved)
  have hreplacementBy := (hunlinked replacement hreplacementMem).2 (.inl hcandidate)
  have hreplacementOf := (hunlinked replacement hreplacementMem).1 hcandidate
  have hne : superseded.candidateId ≠ promoted.candidateId := by
    intro heq
    rw [heq, hreplacement] at hcurrent
    obtain rfl := Option.some.inj hcurrent
    rw [happroved] at hcandidate
    cases hcandidate
  have hpromoted : ((memories.upsert superseded).upsert promoted).lookup promoted.candidateId =
      some promoted := Table.lookup_upsert_self _ _
  have hsuperseded : ((memories.upsert superseded).upsert promoted).lookup superseded.candidateId =
      some superseded := by
    rw [Table.lookup_upsert_ne _ _ hne, Table.lookup_upsert_self]
  have hother : ∀ id, id ≠ superseded.candidateId → id ≠ promoted.candidateId →
      ((memories.upsert superseded).upsert promoted).lookup id = memories.lookup id := by
    intro id hs hp
    rw [Table.lookup_upsert_ne _ _ hp, Table.lookup_upsert_ne _ _ hs]
  -- what is superseded by some memory is neither the current one nor the replacement
  have holder : ∀ id d by', memories.lookup id = some d → d.supersededBy = some by' →
      ((memories.upsert superseded).upsert promoted).lookup id = some d := by
    intro id d by' hd hby
    rw [hother id ?_ ?_, hd]
    · rintro rfl
      obtain rfl := Option.some.inj (hcurrent.symm.trans hd)
      rw [hcurrentBy] at hby
      cases hby
    · rintro rfl
      obtain rfl := Option.some.inj (hreplacement.symm.trans hd)
      rw [hreplacementBy] at hby
      cases hby
  refine linked_of_links ?_ ?_
  · intro c hc id hid
    rcases Table.mem_upsert hc with rfl | ⟨hc', _⟩
    · obtain rfl := Option.some.inj (hback.symm.trans hid)
      exact ⟨superseded, hsuperseded, hforth, hnewer⟩
    rcases Table.mem_upsert hc' with rfl | ⟨hold, _⟩
    · rw [hkept] at hid
      obtain ⟨d, hd, hdby⟩ := h.supersedes current hcurrentMem id hid
      have hkey := Table.key_of_lookup hd
      refine ⟨d, holder id d _ hd hdby, ?_, ?_⟩
      · rw [hdby, Table.key_of_lookup hcurrent]
      · rw [hversion]
        exact h.version hcurrentMem (hkey ▸ hd) (hkey ▸ hid)
    · obtain ⟨d, hd, hdby⟩ := h.supersedes c hold id hid
      have hkey := Table.key_of_lookup hd
      exact ⟨d, holder id d _ hd hdby, hdby, h.version hold (hkey ▸ hd) (hkey ▸ hid)⟩
  · intro c hc id hid
    rcases Table.mem_upsert hc with rfl | ⟨hc', _⟩
    · rw [hnone, hreplacementBy] at hid
      cases hid
    rcases Table.mem_upsert hc' with rfl | ⟨hold, _⟩
    · obtain rfl := Option.some.inj (hforth.symm.trans hid)
      exact ⟨promoted, hpromoted, hback⟩
    · obtain ⟨d, hd, hdof⟩ := h.supersededBy c hold id hid
      by_cases hcur : id = superseded.candidateId
      · subst hcur
        obtain rfl := Option.some.inj (hcurrent.symm.trans hd)
        exact ⟨superseded, hsuperseded, by rw [hkept, hdof]⟩
      · refine ⟨d, ?_, hdof⟩
        rw [hother id hcur ?_, hd]
        rintro rfl
        obtain rfl := Option.some.inj (hreplacement.symm.trans hd)
        rw [hreplacementOf] at hdof
        cases hdof

/-- The call proposes a new candidate that has links already. -/
def ProposesLinked (memories : Memories) (call : MemoryCall) : Prop :=
  ∃ candidate, call = .propose candidate ∧ candidate.status = .candidate ∧
    memories.lookup candidate.candidateId = none ∧
    (candidate.supersedes ≠ none ∨ candidate.supersededBy ≠ none)

theorem linked_step (h : Linked memories) (hunlinked : Unlinked memories) {call : MemoryCall}
    (hcall : ¬ ProposesLinked memories call) {memories' : Memories}
    (hstep : MemoryStep clock bound memories call memories') : Linked memories' ∧ Unlinked memories' := by
  cases hstep with
  | @propose candidate hstatus hnew =>
      have hnone : candidate.supersedes = none ∧ candidate.supersededBy = none := by
        by_contra hlinks
        refine hcall ⟨candidate, rfl, hstatus, hnew, ?_⟩
        by_contra hneither
        obtain ⟨hs, hb⟩ := not_or.mp hneither
        exact hlinks ⟨not_not.mp hs, not_not.mp hb⟩
      exact ⟨h.upsert_new hnew hnone.1 hnone.2, hunlinked.upsert ⟨fun _ => hnone.1, fun _ => hnone.2⟩⟩
  | @approve candidateId _ _ candidate _ hfound hstatus hconflicts =>
      obtain rfl := Table.key_of_lookup hfound
      refine ⟨h.upsert_same hfound rfl rfl rfl, hunlinked.upsert ⟨?_, ?_⟩⟩
      · intro hcandidate
        cases hcandidate
      · intro _
        exact (hunlinked candidate (Table.mem_of_lookup hfound)).2 (.inl hstatus)
  | @reject candidateId _ _ candidate _ hfound hstatus =>
      obtain rfl := Table.key_of_lookup hfound
      refine ⟨h.upsert_same hfound rfl rfl rfl, hunlinked.upsert ⟨?_, ?_⟩⟩
      · intro hcandidate
        cases hcandidate
      · rintro (hcandidate | hcandidate) <;> cases hcandidate
  | @revoke candidateId _ _ candidate _ hfound hstatus =>
      obtain rfl := Table.key_of_lookup hfound
      refine ⟨h.upsert_same hfound rfl rfl rfl, hunlinked.upsert ⟨?_, ?_⟩⟩
      · intro hcandidate
        cases hcandidate
      · rintro (hcandidate | hcandidate) <;> cases hcandidate
  | @supersede currentId replacementId _ _ current replacement _ hcurrent hreplacement happroved hcandidate
      hslot hscope hnewer hconflicts =>
      obtain rfl := Table.key_of_lookup hcurrent
      obtain rfl := Table.key_of_lookup hreplacement
      refine ⟨h.supersede hunlinked hcurrent hreplacement happroved hcandidate hnewer rfl rfl rfl rfl rfl,
        (hunlinked.upsert ⟨?_, ?_⟩).upsert ⟨?_, ?_⟩⟩
      · intro hstatus
        cases hstatus
      · rintro (hstatus | hstatus) <;> cases hstatus
      · intro hstatus
        cases hstatus
      · intro _
        exact (hunlinked replacement (Table.mem_of_lookup hreplacement)).2 (.inl hcandidate)
  | getMemory candidateId moment => exact ⟨h, hunlinked⟩
  | recallMemories scope slot moment => exact ⟨h, hunlinked⟩

/-- A new candidate with links is not linked to anything. -/
theorem not_linked_upsert (h : Linked memories) (hnew : memories.lookup stored.candidateId = none)
    (hlinks : stored.supersedes ≠ none ∨ stored.supersededBy ≠ none) :
    ¬ Linked (memories.upsert stored) := by
  intro hlinked
  have hstored : (memories.upsert stored).lookup stored.candidateId = some stored :=
    Table.lookup_upsert_self _ _
  have hmem := Table.mem_of_lookup hstored
  have hself : stored.supersedes ≠ some stored.candidateId := by
    intro hloop
    exact absurd (hlinked.version hmem hstored hloop) (lt_irrefl _)
  have hold : ∀ id d, id ≠ stored.candidateId → (memories.upsert stored).lookup id = some d →
      d ∈ memories.rows := by
    intro id d hid hd
    rw [Table.lookup_upsert_ne _ _ hid] at hd
    exact Table.mem_of_lookup hd
  rcases hlinks with hlink | hlink
  · obtain ⟨id, hid⟩ := Option.ne_none_iff_exists'.mp hlink
    obtain ⟨d, hd, hback⟩ := hlinked.supersedes stored hmem id hid
    have hne : id ≠ stored.candidateId := by
      rintro rfl
      exact hself hid
    obtain ⟨d', hd', _⟩ := h.supersededBy d (hold id d hne hd) _ hback
    rw [hnew] at hd'
    cases hd'
  · obtain ⟨id, hid⟩ := Option.ne_none_iff_exists'.mp hlink
    obtain ⟨d, hd, hback⟩ := hlinked.supersededBy stored hmem id hid
    by_cases hne : id = stored.candidateId
    · subst hne
      rw [hstored] at hd
      obtain rfl := Option.some.inj hd
      exact hself hback
    · obtain ⟨d', hd', _⟩ := h.supersedes d (hold id d hne hd) _ hback
      rw [hnew] at hd'
      cases hd'

/-! ### Decisions that stand -/

theorem lookup_step {call : MemoryCall} {memories' : Memories}
    (hstep : MemoryStep clock bound memories call memories') {id : String} {candidate : MemoryCandidate}
    (hfound : memories.lookup id = some candidate) (hstatus : candidate.status.Final) :
    memories'.lookup id = some candidate := by
  have hkeep : ∀ {other stored : MemoryCandidate} {otherId : String} {table : Memories},
      memories.lookup otherId = some other → stored.candidateId = other.candidateId →
      (other.status = .candidate ∨ other.status = .approved) → table.lookup id = some candidate →
      (table.upsert stored).lookup id = some candidate := by
    intro other stored otherId table hother hid hopen htable
    rw [Table.lookup_upsert_ne, htable]
    rintro rfl
    rw [hid, Table.key_of_lookup hother, hother] at hfound
    obtain rfl := Option.some.inj hfound
    rcases hopen with hopen | hopen <;> rw [hopen] at hstatus <;>
      rcases hstatus with hstatus | hstatus | hstatus <;> cases hstatus
  cases hstep with
  | @propose proposed hproposed hnew =>
      rw [Table.lookup_upsert_ne, hfound]
      rintro rfl
      rw [hnew] at hfound
      cases hfound
  | approve hother hopen hconflicts => exact hkeep hother rfl (.inl hopen) hfound
  | reject hother hopen => exact hkeep hother rfl (.inl hopen) hfound
  | revoke hother hopen => exact hkeep hother rfl (.inr hopen) hfound
  | supersede hcurrent hreplacement happroved hcandidate hslot hscope hnewer hconflicts =>
      exact hkeep hreplacement rfl (.inl hcandidate) (hkeep hcurrent rfl (.inr happroved) hfound)
  | getMemory candidateId moment => exact hfound
  | recallMemories scope slot moment => exact hfound

end Memories

/-! ### Recall -/

namespace MemoryStore

variable {clock : Clock} {w w' : MemoryWorld}

/-- The candidate is not expired at the moment asked for, or at a reading made between `first` and
`last`. -/
def NotExpired (clock : Clock) (moment : Option DateTime) (first last : ℕ) (candidate : MemoryCandidate) :
    Prop :=
  match moment with
  | some time => ¬ candidate.ExpiredAt time
  | none => candidate.expiry = none ∨
      ∃ i, first ≤ i ∧ i < last ∧ ¬ candidate.ExpiredAt (clock.reading i)

theorem NotExpired.widen {moment : Option DateTime} {first last first' last' : ℕ}
    {candidate : MemoryCandidate} (h : NotExpired clock moment first last candidate) (hfirst : first' ≤ first)
    (hlast : last ≤ last') : NotExpired clock moment first' last' candidate := by
  cases moment with
  | some time => exact h
  | none =>
      refine h.imp id ?_
      rintro ⟨i, hi, hi', halive⟩
      exact ⟨i, hfirst.trans hi, lt_of_lt_of_le hi' hlast, halive⟩

theorem isExpired_false {candidate : MemoryCandidate} {moment : Option DateTime}
    (h : isExpired clock candidate moment w = .ok false w') :
    NotExpired clock moment w.readings w'.readings candidate := by
  obtain ⟨_, hreadings, hgiven, hclock⟩ := isExpired_ok h
  cases moment with
  | some time =>
      intro hexpired
      exact absurd ((hgiven time rfl).mpr hexpired) (by simp)
  | none =>
      refine ((hclock rfl).2 rfl).imp id ?_
      rintro ⟨hlt, halive⟩
      exact ⟨w.readings, le_rfl, hlt, halive⟩

theorem recallAmong_ok {scope : String} {slot : Option MemorySlot} {moment : Option DateTime}
    {among recalled : List MemoryCandidate}
    (h : recallAmong clock scope slot moment among w = .ok recalled w') :
    w.readings ≤ w'.readings ∧ ∀ candidate ∈ recalled, candidate ∈ among ∧ candidate.status = .approved ∧
      (candidate.scope = scope ∨ candidate.scope = "*") ∧
      NotExpired clock moment w.readings w'.readings candidate := by
  induction among generalizing w recalled with
  | nil =>
      cases h
      refine ⟨le_rfl, ?_⟩
      intro candidate hmem
      cases hmem
  | cons first rest ih =>
      unfold recallAmong at h
      by_cases happroved : first.status = .approved
      · rw [if_pos happroved] at h
        obtain ⟨expired, w₁, hexpired, h₁⟩ := estate_bind_ok.mp h
        obtain ⟨others, w₂, hothers, h₂⟩ := estate_bind_ok.mp h₁
        cases h₂
        obtain ⟨_, hreadings, _⟩ := isExpired_ok hexpired
        obtain ⟨hreadings', hall⟩ := ih hothers
        refine ⟨hreadings.trans hreadings', ?_⟩
        have hlater : ∀ candidate ∈ others, candidate ∈ first :: rest ∧ candidate.status = .approved ∧
            (candidate.scope = scope ∨ candidate.scope = "*") ∧
            NotExpired clock moment w.readings w'.readings candidate := by
          intro candidate hmem
          obtain ⟨hin, hstatus, hscope, halive⟩ := hall candidate hmem
          exact ⟨List.mem_cons_of_mem _ hin, hstatus, hscope, halive.widen hreadings le_rfl⟩
        intro candidate hmem
        by_cases hpass : expired = false ∧ (first.scope = scope ∨ first.scope = "*") ∧
            (slot = none ∨ slot = some first.slot)
        · rw [if_pos hpass] at hmem
          rcases List.mem_cons.mp hmem with rfl | hmem
          · obtain ⟨rfl, hscope, _⟩ := hpass
            exact ⟨List.mem_cons_self, happroved, hscope,
              (isExpired_false hexpired).widen le_rfl hreadings'⟩
          · exact hlater candidate hmem
        · rw [if_neg hpass] at hmem
          exact hlater candidate hmem
      · rw [if_neg happroved] at h
        obtain ⟨hreadings, hall⟩ := ih h
        refine ⟨hreadings, ?_⟩
        intro candidate hmem
        obtain ⟨hin, hrest⟩ := hall candidate hmem
        exact ⟨List.mem_cons_of_mem _ hin, hrest⟩

/-- What `recall` returns is stored, approved, in scope, and not expired. -/
theorem recallMemories_ok {scope : String} {slot : Option MemorySlot} {moment : Option DateTime}
    {recalled : List MemoryCandidate}
    (h : recallMemories clock scope slot moment w = .ok recalled w') :
    ∀ candidate ∈ recalled, candidate ∈ (loaded w.lines).rows ∧ candidate.status = .approved ∧
      (candidate.scope = scope ∨ candidate.scope = "*") ∧
      NotExpired clock moment w.readings w'.readings candidate := by
  obtain ⟨memories, _, hload, h₁⟩ := estate_bind_ok.mp h
  obtain ⟨rfl, rfl⟩ := load_ok.mp hload
  obtain ⟨found, _, hfound, h₂⟩ := estate_bind_ok.mp h₁
  cases h₂
  intro candidate hmem
  exact (recallAmong_ok hfound).2 candidate ((List.mem_insertionSort _).mp hmem)

end MemoryStore

/-! ### Sequences of calls -/

/-- The store after the call, whether it returned or raised. -/
def MemoryCall.apply (clock : Clock) (call : MemoryCall) (w : MemoryWorld) : MemoryWorld :=
  finalState (call.run clock) w

/-- The store after the calls, on a new file. -/
def memoryAfter (clock : Clock) (calls : List MemoryCall) : MemoryWorld :=
  runAll (MemoryCall.apply clock) {} calls

/-- The candidates of the store. -/
def MemoryWorld.memories (w : MemoryWorld) : Memories := MemoryStore.loaded w.lines

/-- What the store promises of any calls. -/
structure Governed (clock : Clock) (calls : List MemoryCall) : Prop where
  unambiguous : ∀ pre, pre <+: calls → ∀ moment, clock.Reached (memoryAfter clock pre).readings moment →
    ∀ c ∈ (memoryAfter clock pre).memories.rows, ∀ d ∈ (memoryAfter clock pre).memories.rows,
      c.status = .approved → d.status = .approved → ¬ c.ExpiredAt moment → ¬ d.ExpiredAt moment →
        c.slot = d.slot → c.scope = d.scope → c = d
  linked : ∀ pre, pre <+: calls → Memories.Linked (memoryAfter clock pre).memories
  final : ∀ pre post, pre ++ post <+: calls → ∀ id candidate,
    (memoryAfter clock pre).memories.lookup id = some candidate → candidate.status.Final →
      (memoryAfter clock (pre ++ post)).memories.lookup id = some candidate
  recalled : ∀ pre, pre <+: calls → ∀ scope slot moment recalled w,
    MemoryStore.recallMemories clock scope slot moment (memoryAfter clock pre) = .ok recalled w →
      ∀ candidate ∈ recalled, candidate ∈ (memoryAfter clock pre).memories.rows ∧
        candidate.status = .approved ∧ (candidate.scope = scope ∨ candidate.scope = "*") ∧
        MemoryStore.NotExpired clock moment (memoryAfter clock pre).readings w.readings candidate
  raises : ∀ pre, pre <+: calls → ∀ call e w,
    MemoryCall.run clock call (memoryAfter clock pre) = .error e w → w.lines = (memoryAfter clock pre).lines

section runs

variable {clock : Clock}

theorem memoryAfter_concat (pre : List MemoryCall) (call : MemoryCall) :
    memoryAfter clock (pre ++ [call]) = call.apply clock (memoryAfter clock pre) :=
  runAll_append _ pre [call]

/-- A call takes its step, or the candidates are as they were. -/
theorem MemoryCall.apply_cases (call : MemoryCall) (w : MemoryWorld) :
    w.readings ≤ (call.apply clock w).readings ∧
      (MemoryStep clock (call.apply clock w).readings w.memories call (call.apply clock w).memories ∨
        (call.apply clock w).memories = w.memories) := by
  refine ⟨call.grows_run w, ?_⟩
  unfold apply finalState
  cases hrun : call.run clock w with
  | ok u w' => exact .inl (call.run_step hrun)
  | error e w' => exact .inr (congrArg MemoryStore.loaded (call.run_error hrun))

theorem memory_unambiguous (calls : List MemoryCall) :
    EveryState (MemoryCall.apply clock) (fun w => Memories.Unambiguous clock w.readings w.memories) {}
      calls := by
  refine EveryState.of_invariant (W := fun _ _ => True) ?_ ?_ (EveryStep.of_forall (fun _ _ => trivial) _ _)
  · intro c hc
    cases hc
  · intro w call h _
    obtain ⟨hreadings, hstep | hsame⟩ := call.apply_cases w
    · exact Memories.unambiguous_step (h.mono hreadings) hstep
    · rw [hsame]
      exact h.mono hreadings

theorem memory_final (pre post : List MemoryCall) {id : String} {candidate : MemoryCandidate}
    (hfound : (memoryAfter clock pre).memories.lookup id = some candidate)
    (hstatus : candidate.status.Final) :
    (memoryAfter clock (pre ++ post)).memories.lookup id = some candidate := by
  induction post using List.reverseRecOn with
  | nil =>
      rw [List.append_nil]
      exact hfound
  | append_singleton post call ih =>
      rw [← List.append_assoc, memoryAfter_concat]
      obtain ⟨_, hstep | hsame⟩ := call.apply_cases (memoryAfter clock (pre ++ post))
      · exact Memories.lookup_step hstep ih hstatus
      · rw [hsame]
        exact ih

theorem memory_linked {calls : List MemoryCall}
    (h : EveryStep (MemoryCall.apply clock) (fun w call => ¬ Memories.ProposesLinked w.memories call) {}
      calls) :
    EveryState (MemoryCall.apply clock)
      (fun w => Memories.Linked w.memories ∧ Memories.Unlinked w.memories) {} calls := by
  refine EveryState.of_invariant ⟨Memories.linked_of_links ?_ ?_, ?_⟩ ?_ h
  · intro c hc
    cases hc
  · intro c hc
    cases hc
  · intro c hc
    cases hc
  · intro w call hw hcall
    obtain ⟨_, hstep | hsame⟩ := call.apply_cases w
    · exact Memories.linked_step hw.1 hw.2 hcall hstep
    · rw [hsame]
      exact hw

/-- A new candidate is stored as it is. -/
theorem memories_propose {w : MemoryWorld} {candidate : MemoryCandidate}
    (hstatus : candidate.status = .candidate) (hnew : w.memories.lookup candidate.candidateId = none) :
    ((MemoryCall.propose candidate).apply clock w).memories = w.memories.upsert candidate := by
  have hpropose : MemoryStore.propose clock candidate w =
      .ok candidate ⟨w.lines ++ [[candidate]], w.readings + 1⟩ :=
    estate_bind_ok.mpr ⟨⟨⟩, w, require_ok.mpr ⟨hstatus, rfl⟩,
      estate_bind_ok.mpr ⟨w.memories, w, MemoryStore.load_ok.mpr ⟨rfl, rfl⟩,
        estate_bind_ok.mpr ⟨⟨⟩, w, require_ok.mpr ⟨hnew, rfl⟩, rfl⟩⟩⟩
  have hrun : (MemoryCall.propose candidate).run clock w =
      .ok ⟨⟩ ⟨w.lines ++ [[candidate]], w.readings + 1⟩ :=
    estate_discard_ok.mpr ⟨candidate, hpropose⟩
  rw [MemoryCall.apply, finalState, hrun]
  exact MemoryStore.loaded_append w.lines [candidate]

end runs

/-- **Governed memory.**  After any calls, and at any later moment, what the store promises holds exactly
as long as no new candidate is proposed with links. -/
theorem governed_iff (clock : Clock) (calls : List MemoryCall) :
    Governed clock calls ↔ EveryStep (MemoryCall.apply clock)
      (fun w call => ¬ Memories.ProposesLinked w.memories call) {} calls := by
  constructor
  · intro h
    rw [everyStep_iff_prefixes]
    rintro pre call hpre ⟨candidate, rfl, hstatus, hnew, hlinks⟩
    have hbefore := h.linked pre ((List.prefix_append _ _).trans hpre)
    have hafter := h.linked _ hpre
    have hfresh : (memoryAfter clock pre).memories.lookup candidate.candidateId = none := hnew
    rw [memoryAfter_concat, memories_propose hstatus hfresh] at hafter
    exact Memories.not_linked_upsert hbefore hfresh hlinks hafter
  · intro h
    constructor
    · intro pre hpre moment hmoment c hc d hd hcs hds hcalive hdalive hslot hscope
      have hunambiguous := everyState_iff_prefixes.mp (@memory_unambiguous clock calls) pre hpre
      rcases hunambiguous c hc d hd hcs hds hslot hscope with heq | hexpired | hexpired
      · exact heq
      · exact absurd (hexpired.expiredAt hmoment) hcalive
      · exact absurd (hexpired.expiredAt hmoment) hdalive
    · intro pre hpre
      exact (everyState_iff_prefixes.mp (memory_linked h) pre hpre).1
    · intro pre post _ id candidate hfound hstatus
      exact memory_final pre post hfound hstatus
    · intro pre _ scope slot moment recalled w hrecall
      exact MemoryStore.recallMemories_ok hrecall
    · intro pre _ call e w herror
      exact call.run_error herror

/-- A new memory that claims to supersede one that does not exist. -/
def claimingCandidate : MemoryCandidate where
  candidateId := "memory_2"
  slot := .preference
  content := "Use bullet points."
  scope := "user:owner"
  evidence := ["event://run-1/review"]
  createdAt := ⟨0, some 0⟩
  updatedAt := ⟨0, some 0⟩
  supersedes := some "memory_1"

/-- A clock that stands still. -/
def stoppedClock : Clock := ⟨fun _ => ⟨0, some 0⟩, fun _ => le_rfl⟩

/-- The store keeps a link to a memory that it does not have. -/
theorem not_governed : ¬ Governed stoppedClock [.propose claimingCandidate] := by
  intro h
  have hlinked := h.linked [.propose claimingCandidate] List.prefix_rfl
  have hmem : claimingCandidate ∈ (memoryAfter stoppedClock [.propose claimingCandidate]).memories.rows := by
    decide +kernel
  obtain ⟨d, hd, _⟩ := hlinked.supersedes claimingCandidate hmem "memory_1" rfl
  have hnone : (memoryAfter stoppedClock [.propose claimingCandidate]).memories.lookup "memory_1" = none := by
    decide +kernel
  rw [hnone] at hd
  cases hd

end CrazyHarness
