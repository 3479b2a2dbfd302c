-- SUMMARY: No refresh notification is lost to a live WebSocket subscriber.
import ApmeWebMash.Web.RecordStore

/-! # Notifications

An item is pushed before its event is sent, and a receiver that has fallen
behind goes on with an event that is still there. So after a push there is
something on its way to every loop until the loop has forwarded an event: the
request has not sent yet, or the receiver is behind the channel, or the loop has
taken an event. -/

namespace Web

open Broadcast (Channel)

variable {w w' : World} {l : Label} {ls pre post : List Label} {j : Nat}

/-! ## What is on its way -/

/-- Whether an item was pushed and the loop has forwarded no event since. -/
def stale (j : Nat) (ls : List Label) : Bool :=
  ls.foldl (fun stale l =>
    match l with
    | .push _ _ _ => true
    | .loop k .forward => stale && k ≠ j
    | _ => stale) false

/-- The loop has an event to read or to forward, or has ended. -/
def Loop.Behind (events : Channel Str 256) (loop : Loop) : Prop :=
  loop.next < events.tail ∨ (∃ text, loop.phase = .taken text) ∨ loop.phase = .stopped

/-- When an item is pushed, its request has still to send or the loop is behind. -/
structure Reaches (j : Nat) (ls : List Label) (w : World) (loop : Loop) : Prop where
  get_loop : w.loops[j]? = some loop
  next_le : loop.next ≤ w.events.tail
  on_the_way : stale j ls → (∃ request ∈ w.requests, request.phase = .pushed) ∨
    loop.Behind w.events

/-! ## Steps -/

/-- A loop that has something to read or to forward keeps it until it forwards. -/
theorem behind_act {events : Channel Str 256} {loop loop' : Loop} {act : LoopAct}
    (h : loop.act events act = some loop') (hnext : loop.next ≤ events.tail) :
    loop'.next ≤ events.tail ∧ (act ≠ .forward → loop.Behind events → loop'.Behind events) := by
  cases act with
  | recv =>
    simp only [Loop.act] at h
    split at h
    · rename_i hrecv
      obtain rfl := Option.some.inj h
      -- an overrun loop takes up at an event that is still ahead
      have hlt := Channel.recv_eq_lagged (by decide) hrecv
      exact ⟨hlt.le, fun _ _ => .inl hlt⟩
    · rename_i hrecv
      obtain rfl := Option.some.inj h
      obtain ⟨hlt, rfl⟩ := Channel.recv_eq_event hrecv
      exact ⟨hlt, fun _ _ => .inr (.inl ⟨_, rfl⟩)⟩
    · cases h
  | forward =>
    simp only [Loop.act] at h
    split at h
    · obtain rfl := Option.some.inj h
      exact ⟨hnext, fun hne => absurd rfl hne⟩
    · cases h
  | sendFails =>
    simp only [Loop.act] at h
    split at h
    · obtain rfl := Option.some.inj h
      exact ⟨hnext, fun _ _ => .inr (.inr rfl)⟩
    · obtain rfl := Option.some.inj h
      exact ⟨hnext, fun _ _ => .inr (.inr rfl)⟩
    · cases h
  | ping =>
    obtain ⟨hphase, h⟩ := Option.ite_none_right_eq_some.mp h
    obtain rfl := Option.some.inj h
    refine ⟨hnext, fun _ hbehind => .inl ?_⟩
    simpa [Loop.Behind, hphase] using hbehind
  | pong =>
    obtain ⟨hphase, h⟩ := Option.ite_none_right_eq_some.mp h
    obtain rfl := Option.some.inj h
    refine ⟨hnext, fun _ hbehind => .inl ?_⟩
    simpa [Loop.Behind, hphase] using hbehind
  | close =>
    obtain ⟨hphase, h⟩ := Option.ite_none_right_eq_some.mp h
    obtain rfl := Option.some.inj h
    exact ⟨hnext, fun _ _ => .inr (.inr rfl)⟩

theorem stale_snoc : stale j (ls ++ [l]) =
    match l with
    | .push _ _ _ => true
    | .loop k .forward => stale j ls && k ≠ j
    | _ => stale j ls := by
  simp [stale]

theorem not_stale_forward : stale j (ls ++ [.loop j .forward]) = false := by
  simp [stale_snoc]

theorem stale_of_stale_loop {k : Nat} {act : LoopAct} (h : stale j (ls ++ [.loop k act])) :
    stale j ls := by
  rw [stale_snoc] at h
  split at h
  · rename_i heq
    cases heq
  · exact (Bool.and_eq_true_iff.mp h).1
  · exact h

/-- A request that has pushed and not sent is there after any other phase change. -/
theorem exists_pushed_setPhase {i : Nat} {request : Request} {phase : Phase}
    (hget : w.requests[i]? = some request) (hphase : request.phase ≠ .pushed)
    (h : ∃ other ∈ w.requests, other.phase = .pushed) :
    ∃ other ∈ (w.setPhase i request phase).requests, other.phase = .pushed := by
  obtain ⟨other, hmem, hpushed⟩ := h
  obtain ⟨k, hk⟩ := List.getElem?_of_mem hmem
  have hne : i ≠ k := by
    rintro rfl
    rw [hget] at hk
    exact hphase (Option.some.inj hk ▸ hpushed)
  refine ⟨other, List.mem_of_getElem? (i := k) ?_, hpushed⟩
  rw [World.setPhase, List.getElem?_set_ne hne, hk]

theorem reaches_step {loop : Loop} (h : Reaches j ls w loop) (hstep : Steps w l w') :
    ∃ loop', Reaches j (ls ++ [l]) w' loop' := by
  have hlength : j < w.loops.length := (List.getElem?_eq_some_iff.mp h.get_loop).1
  cases step_cases hstep with
  | receive _ =>
    refine ⟨loop, h.get_loop, h.next_le, fun hstale => ?_⟩
    rw [stale_snoc] at hstale
    obtain ⟨request, hmem, hpushed⟩ | hbehind := h.on_the_way hstale
    · exact .inl ⟨request, List.mem_append_left _ hmem, hpushed⟩
    · exact .inr hbehind
  | reject hget _ =>
    refine ⟨loop, h.get_loop, h.next_le, fun hstale => ?_⟩
    rw [stale_snoc] at hstale
    exact (h.on_the_way hstale).imp_left (exists_pushed_setPhase hget (by simp))
  | @push i input _ _ hget _ =>
    obtain ⟨hlt, -⟩ := List.getElem?_eq_some_iff.mp hget
    -- from here on the event is owed by the request
    refine ⟨loop, h.get_loop, h.next_le, fun _ => .inl ?_⟩
    exact ⟨⟨input, .pushed⟩, List.mem_set hlt _, rfl⟩
  | send _ =>
    have hnext := h.next_le
    -- an event is only sent while somebody listens
    by_cases hstopped : loop.phase = .stopped
    · refine ⟨loop, h.get_loop, ?_, fun _ => .inr (.inr (.inr hstopped))⟩
      change loop.next ≤ w.notify.tail
      unfold World.notify
      split
      · exact Nat.le_succ_of_le hnext
      · exact hnext
    · have hlive : w.loops.any (·.phase ≠ .stopped) :=
        List.any_eq_true.mpr ⟨loop, List.mem_of_getElem? h.get_loop, by simpa using hstopped⟩
      have htail : w.notify.tail = w.events.tail + 1 := by
        rw [World.notify, if_pos hlive, Channel.tail_send]
      have hlt : loop.next < w.notify.tail := by omega
      exact ⟨loop, h.get_loop, hlt.le, fun _ => .inr (.inl hlt)⟩
  | answer hget =>
    refine ⟨loop, h.get_loop, h.next_le, fun hstale => ?_⟩
    rw [stale_snoc] at hstale
    exact (h.on_the_way hstale).imp_left (exists_pushed_setPhase hget (by simp))
  | subscribe =>
    refine ⟨loop, ?_, h.next_le, fun hstale => ?_⟩
    · rw [List.getElem?_append_left hlength, h.get_loop]
    · rw [stale_snoc] at hstale
      exact h.on_the_way hstale
  | @loop k act other loop' hget hact =>
    by_cases hk : k = j
    · subst hk
      obtain rfl := Option.some.inj (hget.symm.trans h.get_loop)
      obtain ⟨hnext, hbehind⟩ := behind_act hact h.next_le
      refine ⟨loop', List.getElem?_set_self hlength, hnext, fun hstale => ?_⟩
      have hforward : act ≠ .forward := by
        rintro rfl
        rw [not_stale_forward] at hstale
        cases hstale
      exact (h.on_the_way (stale_of_stale_loop hstale)).imp_right (hbehind hforward)
    · refine ⟨loop, ?_, h.next_le, fun hstale => h.on_the_way (stale_of_stale_loop hstale)⟩
      rw [World.setLoop, List.getElem?_set_ne hk, h.get_loop]

/-! ## Runs -/

/-- From its subscription on, every push reaches a loop. -/
theorem exists_reaches (h : RunsTo (pre ++ .subscribe j :: post) w) :
    ∃ loop, Reaches j post w loop := by
  obtain ⟨t, t', -, hsubscribe, hrun⟩ := Runs.exists_step h
  refine hrun.invariant (I := fun ls w => ∃ loop, Reaches j ls w loop) ?_ ?_
  · cases step_cases hsubscribe
    refine ⟨⟨t.events.tail, .waiting⟩, ?_, Nat.le_refl _, fun hstale => ?_⟩
    · exact List.getElem?_concat_length
    · cases hstale
  · rintro ls u l u' ⟨loop, hreaches⟩ hstep
    exact reaches_step hreaches hstep

/-- Where nothing is stale, an event was forwarded after the last push. -/
theorem exists_forward (h : stale j ls = false) (hpushed : pushed ls ≠ []) :
    ∃ before behind, ls = before ++ .loop j .forward :: behind ∧ pushed behind = [] := by
  induction ls using List.reverseRecOn with
  | nil => exact absurd rfl hpushed
  | append_singleton ls l ih =>
    by_cases hforward : l = .loop j .forward
    · exact ⟨ls, [], by rw [hforward], rfl⟩
    have hlast : l.pushed = [] ∧ stale j ls = false := by
      rw [stale_snoc] at h
      split at h
      · cases h
      · rename_i k
        have hk : k ≠ j := by
          rintro rfl
          exact hforward rfl
        exact ⟨rfl, by simpa [hk] using h⟩
      · rename_i hpush _
        refine ⟨?_, h⟩
        cases l with
        | push i input id => exact (hpush i input id rfl).elim
        | receive _ | reject _ | send _ | answer _ | subscribe _ | loop _ _ => rfl
    obtain ⟨hl, hstale⟩ := hlast
    obtain ⟨before, behind, rfl, hbehind⟩ := ih hstale (by simpa [pushed_singleton, hl] using hpushed)
    exact ⟨before, behind ++ [l], by simp, by simp [pushed_singleton, hbehind, hl]⟩

/-- No notification is lost. Where no request is between its push and its send,
    and a loop waits at an empty queue, an event was forwarded after the last
    push since its subscription, and a client that fetches the items when it
    gets this event, or later, gets them all. -/
theorem no_lost_notification {next : Nat} (h : RunsTo (pre ++ .subscribe j :: post) w)
    (hidle : ∀ request ∈ w.requests, request.phase ≠ .pushed)
    (hwaiting : w.loops[j]? = some ⟨next, .waiting⟩) (hempty : w.events.recv next = .empty)
    (hpushed : pushed post ≠ []) :
    ∃ before behind, post = before ++ .loop j .forward :: behind ∧ pushed behind = [] ∧
      ∀ ms w', ms <+: behind →
        RunsTo (pre ++ .subscribe j :: before ++ .loop j .forward :: ms) w' →
        w'.items = w.items := by
  obtain ⟨loop, hreaches⟩ := exists_reaches h
  obtain rfl := Option.some.inj (hwaiting.symm.trans hreaches.get_loop)
  obtain rfl := (Channel.recv_eq_empty_iff hreaches.next_le).mp hempty
  -- nothing is owed to a loop that waits at an empty queue
  have hstale : stale j post = false := by
    rw [← Bool.not_eq_true]
    intro hstale
    obtain ⟨request, hmem, hphase⟩ | hlt | ⟨text, htaken⟩ | hstopped :=
      hreaches.on_the_way hstale
    · exact hidle request hmem hphase
    · exact Nat.lt_irrefl _ hlt
    · cases htaken
    · cases hstopped
  obtain ⟨before, behind, rfl, hbehind⟩ := exists_forward hstale hpushed
  refine ⟨before, behind, rfl, hbehind, fun ms w' hms h' => ?_⟩
  obtain ⟨rest, rfl⟩ := hms
  obtain ⟨hms, hrest⟩ := List.append_eq_nil_iff.mp ((pushed_append ms rest).symm.trans hbehind)
  refine List.map_injective_iff.mpr (Option.some_injective _) ?_
  rw [h'.items_eq, h.items_eq]
  simp [pushed_cons, hms, hrest]

/-- With a loop that subscribes between two pushes. -/
theorem no_lost_notification_late :
    let pre : List Label := [.receive [("title", "a")], .receive [("title", "b")],
      .push 0 ⟨"a", []⟩ 1]
    let post : List Label := [.send 0, .push 1 ⟨"b", []⟩ 2, .send 1, .loop 0 .recv,
      .loop 0 .forward, .loop 0 .recv, .loop 0 .forward]
    ∃ before behind, post = before ++ .loop 0 .forward :: behind ∧ pushed behind = [] ∧
      ∀ ms w', ms <+: behind →
        RunsTo (pre ++ .subscribe 0 :: before ++ .loop 0 .forward :: ms) w' →
        w'.items = [⟨1, "a", []⟩, ⟨2, "b", []⟩] :=
  no_lost_notification (w := ⟨[⟨1, "a", []⟩, ⟨2, "b", []⟩],
    (Channel.empty.send recordChanged).send recordChanged,
    [⟨⟨"a", []⟩, .sent⟩, ⟨⟨"b", []⟩, .sent⟩], [⟨2, .waiting⟩]⟩)
    (Runs.of_foldlM rfl) (by decide) rfl rfl (by decide)

end Web
