import PropertyGraph.Proofs.Streams

/-!
# The table of pending requests

The table and the streams say the same thing twice: a request is pending exactly as long as its stream is
connected, and the table leads to that stream. With this invariant an operation on the table is an
operation on the streams alone. Forgetting a request disconnects the streams of its identifier, and a
response reaches the connected stream of its identifier and no other.
-/

namespace PropertyGraph

namespace Client

/-- Takes a stream away. -/
def erase (number : Nat) (c : Client) : Client :=
  { c with streams := c.streams.filter (·.1 != number) }

/-- What only time and connection decide, and the numbers that have been given out. -/
structure Keeps (c c' : Client) : Prop where
  config : c'.config = c.config
  clock : c'.clock = c.clock
  closed : c'.closed = c.closed
  nextStream : c'.nextStream = c.nextStream

theorem Keeps.refl (c : Client) : Keeps c c := ⟨rfl, rfl, rfl, rfl⟩

theorem Keeps.trans {c c' c'' : Client} (h : Keeps c c') (h' : Keeps c' c'') : Keeps c c'' :=
  ⟨h'.config.trans h.config, h'.clock.trans h.clock, h'.closed.trans h.closed,
    h'.nextStream.trans h.nextStream⟩

variable {c : Client}

theorem keeps_mapStream (number : Nat) (f : ResultStream → ResultStream) :
    Keeps c (c.mapStream number f) := ⟨rfl, rfl, rfl, rfl⟩

theorem keeps_erase (number : Nat) : Keeps c (c.erase number) := ⟨rfl, rfl, rfl, rfl⟩

theorem keeps_forget (id : RequestId) : Keeps c (c.forget id) := by
  unfold forget
  split <;> exact ⟨rfl, rfl, rfl, rfl⟩

theorem stream?_mapStream (number n : Nat) (f : ResultStream → ResultStream) :
    (c.mapStream number f).stream? n
      = (c.stream? n).map fun s => if n = number then f s else s :=
  lookup_map_values (fun n s => if n = number then f s else s) c.streams n

theorem stream?_erase (number n : Nat) :
    (c.erase number).stream? n = if n = number then none else c.stream? n :=
  lookup_filter_ne c.streams number n

theorem pending_forget (id : RequestId) :
    (c.forget id).pending = c.pending.filter (·.1 != id) := by
  unfold forget
  split
  · rfl
  · next hnone =>
      refine (List.filter_eq_self.mpr fun p hp => ?_).symm
      have hne := List.lookup_eq_none_iff.mp hnone p hp
      rw [bne_comm]
      simpa using hne

theorem lookup_pending_forget (id other : RequestId) :
    (c.forget id).pending.lookup other = if other = id then none else c.pending.lookup other := by
  rw [pending_forget]
  exact lookup_filter_ne c.pending id other

/-- A request is pending exactly as long as its stream is connected. -/
structure Consistent (c : Client) : Prop where
  nodup : (c.pending.map Prod.fst).Nodup
  lookup_iff : ∀ id n, c.pending.lookup id = some n ↔
    ∃ s, c.stream? n = some s ∧ s.requestId = id ∧ s.connected = true
  unused : ∀ n, c.nextStream ≤ n → c.stream? n = none

namespace Consistent

theorem lookup_eq_some_iff (h : c.Consistent) {n : Nat} {s : ResultStream}
    (hs : c.stream? n = some s) (id : RequestId) :
    c.pending.lookup id = some n ↔ s.requestId = id ∧ s.connected = true := by
  rw [h.lookup_iff]
  constructor
  · rintro ⟨s', hs', hboth⟩
    rw [hs] at hs'
    cases hs'
    exact hboth
  · exact fun hboth => ⟨s, hs, hboth⟩

theorem stream?_forget (h : c.Consistent) (id : RequestId) (n : Nat) :
    (c.forget id).stream? n
      = (c.stream? n).map fun s => if s.requestId = id then s.disconnect else s := by
  have hpending : (c.forget id).stream? n
      = (c.stream? n).map fun s => if c.pending.lookup id = some n then s.disconnect else s := by
    unfold forget
    split
    · next number hlookup =>
        refine (stream?_mapStream number n ResultStream.disconnect).trans ?_
        simp only [hlookup, Option.some.injEq, eq_comm]
    · next hlookup => simp [hlookup]
  rw [hpending]
  refine Option.map_congr fun s hs => ?_
  simp only [h.lookup_eq_some_iff hs]
  by_cases hid : s.requestId = id
  · cases hconnected : s.connected with
    | true => simp [hid]
    | false => simp [hid, ResultStream.disconnect_eq_self hconnected]
  · simp [hid]

theorem mapStream (h : c.Consistent) (number : Nat) {f : ResultStream → ResultStream}
    (hf : ∀ s, (f s).requestId = s.requestId ∧ (f s).connected = s.connected) :
    (c.mapStream number f).Consistent where
  nodup := h.nodup
  lookup_iff id n := by
    refine (h.lookup_iff id n).trans ?_
    rw [stream?_mapStream]
    have hkept : ∀ s : ResultStream, (if n = number then f s else s).requestId = s.requestId ∧
        (if n = number then f s else s).connected = s.connected := by
      intro s
      split
      · exact hf s
      · exact ⟨rfl, rfl⟩
    constructor
    · rintro ⟨s, hs, hid, hconnected⟩
      refine ⟨_, by rw [hs]; rfl, ?_, ?_⟩
      · rw [(hkept s).1, hid]
      · rw [(hkept s).2, hconnected]
    · rintro ⟨s', hs', hid, hconnected⟩
      obtain ⟨s, hs, rfl⟩ := Option.map_eq_some_iff.mp hs'
      rw [(hkept s).1] at hid
      rw [(hkept s).2] at hconnected
      exact ⟨s, hs, hid, hconnected⟩
  unused n hn := by
    rw [stream?_mapStream, h.unused n hn]
    rfl

theorem forget (h : c.Consistent) (id : RequestId) : (c.forget id).Consistent where
  nodup := by
    rw [pending_forget]
    exact h.nodup.sublist (List.filter_sublist.map Prod.fst)
  lookup_iff other n := by
    rw [lookup_pending_forget, h.stream?_forget]
    by_cases hother : other = id
    · subst hother
      simp only [if_true, reduceCtorEq, false_iff]
      rintro ⟨s', hs', hid, hconnected⟩
      obtain ⟨s, -, rfl⟩ := Option.map_eq_some_iff.mp hs'
      by_cases hs : s.requestId = other
      · simp [hs] at hconnected
      · simp [hs] at hid
    · rw [if_neg hother, h.lookup_iff]
      constructor
      · rintro ⟨s, hs, hid, hconnected⟩
        have hne : s.requestId ≠ id := fun heq => hother (hid.symm.trans heq)
        exact ⟨s, by simp [hs, hne], hid, hconnected⟩
      · rintro ⟨s', hs', hid, hconnected⟩
        obtain ⟨s, hs, rfl⟩ := Option.map_eq_some_iff.mp hs'
        by_cases hsid : s.requestId = id
        · simp [hsid] at hconnected
        · rw [if_neg hsid] at hid hconnected
          exact ⟨s, hs, hid, hconnected⟩
  unused n hn := by
    rw [(keeps_forget id).nextStream] at hn
    rw [h.stream?_forget, h.unused n hn]
    rfl

/-- A stream to which nothing more can arrive may go away. -/
theorem erase (h : c.Consistent) {number : Nat}
    (hnumber : ∀ s, c.stream? number = some s → s.connected = false) :
    (c.erase number).Consistent where
  nodup := h.nodup
  lookup_iff id n := by
    refine (h.lookup_iff id n).trans ?_
    rw [stream?_erase]
    by_cases hn : n = number
    · subst hn
      simp only [if_true, reduceCtorEq, false_and, exists_false, iff_false]
      rintro ⟨s, hs, -, hconnected⟩
      rw [hnumber s hs] at hconnected
      cases hconnected
    · rw [if_neg hn]
  unused n hn := by
    rw [stream?_erase, h.unused n hn, ite_self]

/-- A request that is finished: its stream is given something, and then nothing more. -/
theorem stream?_finish (h : c.Consistent) {id : RequestId} {number : Nat}
    {f : ResultStream → ResultStream} (hnumber : c.pending.lookup id = some number)
    (hf : ∀ s, (f s).requestId = s.requestId ∧ (f s).connected = s.connected) (n : Nat) :
    ((c.mapStream number f).forget id).stream? n
      = (c.stream? n).map fun s =>
          if s.requestId = id ∧ s.connected = true then (f s).disconnect else s := by
  rw [(h.mapStream number hf).stream?_forget, stream?_mapStream, Option.map_map]
  refine Option.map_congr fun s hs => ?_
  have hhit : n = number ↔ s.requestId = id ∧ s.connected = true := by
    rw [← h.lookup_eq_some_iff hs, hnumber, Option.some.injEq, eq_comm]
  by_cases hn : n = number
  · obtain ⟨hid, hconnected⟩ := hhit.mp hn
    simp [hn, hid, hconnected, (hf s).1]
  · have hmiss := hn ∘ hhit.mpr
    rw [Function.comp_apply, if_neg hn, if_neg hmiss]
    by_cases hid : s.requestId = id
    · have hconnected : s.connected = false := by
        cases hconnected : s.connected with
        | true => exact absurd ⟨hid, hconnected⟩ hmiss
        | false => rfl
      rw [if_pos hid, ResultStream.disconnect_eq_self hconnected]
    · rw [if_neg hid]

/-- A response reaches the connected stream of its request. -/
theorem stream?_route (h : c.Consistent) (response : ResponseMessage) (n : Nat) :
    (c.route response).stream? n = (c.stream? n).map (·.answer response) := by
  have hmissed : (∀ id, response.requestId = some id → c.pending.lookup id = none) →
      c.stream? n = (c.stream? n).map (·.answer response) := by
    intro hnone
    cases hs : c.stream? n with
    | none => rfl
    | some s =>
        have hmiss : ¬(response.requestId = some s.requestId ∧ s.connected = true) := by
          rintro ⟨hid, hconnected⟩
          have hlookup := (h.lookup_eq_some_iff hs s.requestId).mpr ⟨rfl, hconnected⟩
          rw [hnone _ hid] at hlookup
          cases hlookup
        rw [Option.map_some, ResultStream.answer_of_not hmiss]
  unfold route
  split
  · next hid => exact hmissed fun id hid' => nomatch hid.symm.trans hid'
  · next id hid =>
      split
      · next hnone =>
          refine hmissed fun id' hid' => ?_
          cases hid.symm.trans hid'
          exact hnone
      · next number hnumber =>
          have hkept : ∀ s : ResultStream,
              (s.deliver (itemsOf response)).requestId = s.requestId ∧
                (s.deliver (itemsOf response)).connected = s.connected := fun _ => ⟨rfl, rfl⟩
          have hanswer : ∀ s : ResultStream, s.answer response
              = if s.requestId = id ∧ s.connected = true then
                  if response.isTerminal then (s.deliver (itemsOf response)).disconnect
                  else s.deliver (itemsOf response)
                else s := by
            intro s
            simp only [ResultStream.answer, hid, Option.some.injEq, eq_comm]
          simp only [hanswer]
          cases response.isTerminal with
          | true => exact h.stream?_finish hnumber hkept n
          | false =>
              refine (stream?_mapStream number n _).trans (Option.map_congr fun s hs => ?_)
              have hhit : n = number ↔ s.requestId = id ∧ s.connected = true := by
                rw [← h.lookup_eq_some_iff hs, hnumber, Option.some.injEq, eq_comm]
              simp [hhit]

theorem route (h : c.Consistent) (response : ResponseMessage) : (c.route response).Consistent := by
  unfold Client.route
  split
  · exact h
  · split
    · exact h
    · have hdelivered := h.mapStream ‹Nat› (f := (·.deliver (itemsOf response)))
        fun _ => ⟨rfl, rfl⟩
      split
      · exact hdelivered.forget _
      · exact hdelivered

end Consistent

theorem keeps_route (response : ResponseMessage) : Keeps c (c.route response) := by
  unfold route
  split
  · exact .refl c
  · split
    · exact .refl c
    · split
      · exact (keeps_mapStream _ _).trans (keeps_forget _)
      · exact keeps_mapStream _ _

/-- A stream that has just been registered. -/
def freshStream (id : RequestId) : ResultStream := ⟨id, [], true, none, .open⟩

theorem keeps_release (number : Nat) : Keeps c (c.release number) := by
  unfold release
  split
  · exact .refl c
  · dsimp only
    split
    · exact keeps_erase number
    · exact (keeps_erase number).trans (keeps_forget _)

theorem forget_erase (number : Nat) (id : RequestId) :
    (c.erase number).forget id = (c.forget id).erase number := by
  have hpending : (c.erase number).pending = c.pending := rfl
  unfold forget
  rw [hpending]
  split
  · simp only [erase, mapStream, List.filter_map]
    rfl
  · rfl

/-- A stream that is given up takes its request out of the table, unless it has ended. -/
theorem release_eq {number : Nat} {s : ResultStream} (hs : c.stream? number = some s) :
    c.release number
      = if s.phase = .ended then c.erase number else (c.forget s.requestId).erase number := by
  unfold release
  rw [hs, ← forget_erase]
  rfl

theorem Consistent.stream?_register (h : c.Consistent) (id : RequestId) (n : Nat) :
    (c.register id).2.stream? n
      = if n = c.nextStream then some (freshStream id)
        else (c.stream? n).map fun s => if s.requestId = id then s.disconnect else s := by
  rw [← h.stream?_forget]
  have hnext : (c.forget id).nextStream = c.nextStream := (keeps_forget id).nextStream
  simp only [register, stream?, List.lookup_cons, hnext]
  by_cases hn : n = c.nextStream
  · simp [hn, freshStream]
  · simp [hn, beq_false_of_ne hn]

theorem lookup_pending_register (id other : RequestId) :
    (c.register id).2.pending.lookup other
      = if other = id then some c.nextStream else c.pending.lookup other := by
  have hnext : (c.forget id).nextStream = c.nextStream := (keeps_forget id).nextStream
  simp only [register, List.lookup_cons, hnext, lookup_pending_forget]
  by_cases hother : other = id
  · simp [hother]
  · simp [hother, beq_false_of_ne hother]

namespace Consistent

theorem register (h : c.Consistent) (id : RequestId) : (c.register id).2.Consistent where
  nodup := by
    have hforgotten : id ∉ (c.forget id).pending.map Prod.fst := by
      rw [mem_keys_iff_lookup]
      simp [lookup_pending_forget]
    exact List.nodup_cons.mpr ⟨hforgotten, (h.forget id).nodup⟩
  lookup_iff other n := by
    rw [lookup_pending_register, h.stream?_register]
    by_cases hn : n = c.nextStream
    · subst hn
      have hunused : c.pending.lookup other ≠ some c.nextStream := by
        intro hlookup
        obtain ⟨s, hs, -⟩ := (h.lookup_iff other _).mp hlookup
        rw [h.unused _ (Nat.le_refl _)] at hs
        cases hs
      by_cases hother : other = id
      · simp [hother, freshStream]
      · simp [hother, hunused, freshStream, Ne.symm hother]
    · have hforgotten := (h.forget id).lookup_iff other n
      rw [lookup_pending_forget, h.stream?_forget] at hforgotten
      rw [if_neg hn, ← hforgotten]
      by_cases hother : other = id
      · simp [hother, Ne.symm hn]
      · simp [hother]
  unused n hn := by
    have hnext : (c.register id).2.nextStream = c.nextStream + 1 :=
      congrArg (· + 1) (keeps_forget id).nextStream
    rw [hnext] at hn
    rw [h.stream?_register, if_neg (by omega), h.unused n (by omega)]
    rfl

end Consistent

/-! ### The loss of the connection -/

/-- Fails a pending request. -/
def cutOff (c : Client) (entry : RequestId × Nat) : Client :=
  (c.mapStream entry.2
    (·.deliver [.error ConnectionError.closed.toTraversalError])).forget entry.1

theorem Consistent.pending_cutOff (h : c.Consistent) {id : RequestId} {number : Nat}
    {rest : List (RequestId × Nat)} (hentries : c.pending = (id, number) :: rest) :
    (cutOff c (id, number)).pending = rest := by
  have hnodup := h.nodup
  rw [hentries, List.map_cons, List.nodup_cons] at hnodup
  rw [cutOff, pending_forget]
  refine (congrArg (List.filter (·.1 != id)) hentries).trans ?_
  rw [List.filter_cons_of_neg (by simp), List.filter_eq_self]
  intro p hp
  have hne : p.1 ≠ id := fun heq => hnodup.1 (List.mem_map.mpr ⟨p, hp, heq⟩)
  simpa using hne

/-- All connected streams fail, since the table leads to each of them. -/
theorem Consistent.foldl_cutOff {entries : List (RequestId × Nat)} (h : c.Consistent)
    (hentries : c.pending = entries) :
    Keeps c (entries.foldl cutOff c) ∧ (entries.foldl cutOff c).Consistent ∧
      ∀ n, (entries.foldl cutOff c).stream? n = (c.stream? n).map ResultStream.cutOff := by
  induction entries generalizing c with
  | nil =>
      refine ⟨.refl c, h, fun n => ?_⟩
      cases hs : c.stream? n with
      | none => exact hs
      | some s =>
          have hconnected : s.connected = false := by
            cases hconnected : s.connected with
            | true =>
                have hlookup := (h.lookup_eq_some_iff hs s.requestId).mpr ⟨rfl, hconnected⟩
                rw [hentries] at hlookup
                cases hlookup
            | false => rfl
          refine hs.trans (congrArg some ?_)
          simp [ResultStream.cutOff, hconnected]
  | cons entry rest ih =>
      obtain ⟨id, number⟩ := entry
      have hnumber : c.pending.lookup id = some number :=
        lookup_of_mem h.nodup (by simp [hentries])
      have hkept : ∀ s : ResultStream,
          (s.deliver [.error ConnectionError.closed.toTraversalError]).requestId = s.requestId ∧
            (s.deliver [.error ConnectionError.closed.toTraversalError]).connected = s.connected :=
        fun _ => ⟨rfl, rfl⟩
      have hkeeps : Keeps c (cutOff c (id, number)) :=
        (keeps_mapStream _ _).trans (keeps_forget id)
      have hrest : (cutOff c (id, number)).pending = rest := h.pending_cutOff hentries
      have hcut : (cutOff c (id, number)).Consistent := (h.mapStream number hkept).forget id
      obtain ⟨hkeeps', hconsistent, hstreams⟩ := ih hcut hrest
      refine ⟨hkeeps.trans hkeeps', hconsistent, fun n => ?_⟩
      have hfinished : (cutOff c (id, number)).stream? n = _ := h.stream?_finish hnumber hkept n
      rw [List.foldl_cons, hstreams, hfinished, Option.map_map]
      refine Option.map_congr fun s _ => ?_
      by_cases hhit : s.requestId = id ∧ s.connected = true
      · simp [hhit, ResultStream.cutOff]
      · simp [hhit]

namespace Consistent

theorem closeConnection (h : c.Consistent) : Consistent { c with closed := true } :=
  ⟨h.nodup, h.lookup_iff, h.unused⟩

theorem lose (h : c.Consistent) : c.lose.Consistent :=
  (h.closeConnection.foldl_cutOff rfl).2.1

theorem stream?_lose (h : c.Consistent) (n : Nat) :
    c.lose.stream? n = (c.stream? n).map ResultStream.cutOff :=
  (h.closeConnection.foldl_cutOff rfl).2.2 n

theorem keeps_lose (h : c.Consistent) : Keeps { c with closed := true } c.lose :=
  (h.closeConnection.foldl_cutOff rfl).1

end Consistent

end Client

end PropertyGraph
