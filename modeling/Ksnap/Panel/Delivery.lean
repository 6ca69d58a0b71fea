import Ksnap.Panel.Logbook

/-!
# Every line reaches every client once

The history of the feed is what the lock makes of the interleaving: an entry is pushed
with the next number, and a look sees what is kept. So what a client gets follows from
the history alone, and the threads only have to keep to the discipline. It leaves room
for an invariant of the page, which grows with the number of entries.
-/

namespace Ksnap.Panel.Logbook

open Foundation

variable {ι : Type} [DecidableEq ι]

/-! ## The discipline -/

/-- The logbook holds what the history says. -/
structure Settled (capacity : ℕ) (state : LogState ι) : Prop where
  entries : state.entries = Feed.kept capacity state.feed
  nextSeq : state.nextSeq = Feed.pushCount state.feed + 1

structure Orderly (capacity : ℕ) (client : ι → Prop) (page : Page ι → ℕ → Prop)
    (state : LogState ι) : Prop where
  numbered : Feed.Numbered LogEntry.seq state.feed
  served : ∀ i, client i → Feed.Served LogEntry.seq capacity i state.feed
  settled : state.owner = none → Settled capacity state
  page : page state.page (Feed.pushCount state.feed)

/-- What the others do: they never look or ask in the place of this thread, and leave the
logbook alone while it owns the lock. -/
structure Undisturbed (capacity : ℕ) (i : ι) (before now : LogState ι) : Prop where
  owner : before.owner = some i ↔ now.owner = some i
  locked : before.owner = some i →
    now.nextSeq = before.nextSeq ∧ now.entries = before.entries ∧
      Feed.pushCount now.feed = Feed.pushCount before.feed ∧
      Feed.kept capacity now.feed = Feed.kept capacity before.feed
  view : Feed.SameView LogEntry.seq capacity i before.feed now.feed
  grown : Feed.pushCount before.feed ≤ Feed.pushCount now.feed
  asked : now.page.asked i = before.page.asked i

def logDiscipline (capacity : ℕ) (client : ι → Prop) (page : Page ι → ℕ → Prop) :
    Discipline (logSystem ι capacity) where
  always := Orderly capacity client page
  rely := Undisturbed capacity
  refl := fun i state =>
    ⟨Iff.rfl, fun _ => ⟨rfl, rfl, rfl, rfl⟩, Feed.SameView.refl, le_rfl, rfl⟩
  trans := by
    intro i first second third one two
    refine ⟨one.owner.trans two.owner, ?_, one.view.trans two.view, one.grown.trans two.grown,
      two.asked.trans one.asked⟩
    intro owned
    rcases one.locked owned with ⟨nextSeq, entries, count, kept⟩
    rcases two.locked (one.owner.mp owned) with ⟨nextSeq', entries', count', kept'⟩
    exact ⟨nextSeq'.trans nextSeq, entries'.trans entries, count'.trans count, kept'.trans kept⟩

/-! ## What a thread knows -/

/-- Knowledge about the history and the page, whoever owns the lock. -/
abbrev Known (ι : Type) : Type := List (FeedEvent ι LogEntry) → Page ι → Prop

abbrev nothing : Known ι := fun _ _ => True

/-- The others cannot spoil it. -/
def Steady (capacity : ℕ) (i : ι) (known : Known ι) : Prop :=
  ∀ before now, Undisturbed capacity i before now → known before.feed before.page →
    known now.feed now.page

theorem steady_nothing {capacity : ℕ} {i : ι} : Steady capacity i nothing :=
  fun _ _ _ _ => trivial

/-- The thread does not own the lock. -/
structure Outside (i : ι) (known : Known ι) (state : LogState ι) : Prop where
  outside : state.owner ≠ some i
  knows : known state.feed state.page

/-- The thread owns the lock, and the next entry gets this many numbers more than needed. -/
structure Ahead (capacity : ℕ) (i : ι) (extra : ℕ) (known : Known ι) (state : LogState ι) :
    Prop where
  owned : state.owner = some i
  entries : state.entries = Feed.kept capacity state.feed
  nextSeq : state.nextSeq = Feed.pushCount state.feed + 1 + extra
  knows : known state.feed state.page

/-- The thread owns the lock, and the logbook is settled. -/
abbrev Inside (capacity : ℕ) (i : ι) (known : Known ι) : LogState ι → Prop :=
  Ahead capacity i 0 known

section Threads

variable {capacity : ℕ} {client : ι → Prop} {page : Page ι → ℕ → Prop} {i : ι}
  {known : Known ι} {now after : LogState ι}

theorem stable_outside (steady : Steady capacity i known) :
    Stable (logDiscipline capacity client page) i (Outside i known) := by
  intro before now holds relied
  refine ⟨?_, steady before now relied holds.knows⟩
  intro owned
  exact holds.outside (relied.owner.mpr owned)

theorem stable_ahead {extra : ℕ} (steady : Steady capacity i known) :
    Stable (logDiscipline capacity client page) i (Ahead capacity i extra known) := by
  intro before now holds relied
  rcases relied.locked holds.owned with ⟨nextSeq, entries, count, kept⟩
  refine ⟨relied.owner.mp holds.owned, ?_, ?_, steady before now relied holds.knows⟩
  · rw [entries, kept, holds.entries]
  · rw [nextSeq, count, holds.nextSeq]

/-! ## Changes a thread may make -/

theorem guaranteed_unchanged (always : Orderly capacity client page now) :
    (logDiscipline capacity client page).Guaranteed i now now :=
  ⟨always, fun j _ => (logDiscipline capacity client page).refl j now⟩

/-- Who does not own the lock relies on its own looks and questions only. -/
theorem undisturbed_owned {j : ι} (other : j ≠ i) (owned : now.owner = some i)
    (owner : after.owner = some i ∨ after.owner = none)
    (view : Feed.SameView LogEntry.seq capacity j now.feed after.feed)
    (grown : Feed.pushCount now.feed ≤ Feed.pushCount after.feed)
    (asked : after.page.asked j = now.page.asked j) : Undisturbed capacity j now after := by
  have notOwned : now.owner ≠ some j := by
    rw [owned]
    exact fun same => other (Option.some_inj.mp same).symm
  have notOwns : after.owner ≠ some j := by
    rcases owner with owns | free
    · rw [owns]
      exact fun same => other (Option.some_inj.mp same).symm
    · rw [free]
      exact Option.some_ne_none j ∘ Eq.symm
  exact ⟨iff_of_false notOwned notOwns, fun owned => absurd owned notOwned, view, grown, asked⟩

theorem guaranteed_acquire (always : Orderly capacity client page now) (free : now.owner = none) :
    (logDiscipline capacity client page).Guaranteed i now { now with owner := some i } := by
  refine ⟨⟨always.numbered, always.served, ?_, always.page⟩, ?_⟩
  · intro impossible
    cases impossible
  · intro j other
    have notOwned : now.owner ≠ some j := by
      rw [free]
      exact Option.some_ne_none j ∘ Eq.symm
    have notOwns : some i ≠ some j := fun same => other (Option.some_inj.mp same).symm
    exact ⟨iff_of_false notOwned notOwns, fun owned => absurd owned notOwned, Feed.SameView.refl,
      le_rfl, rfl⟩

theorem guaranteed_release (always : Orderly capacity client page now)
    (inside : Inside capacity i known now) :
    (logDiscipline capacity client page).Guaranteed i now { now with owner := none } := by
  refine ⟨⟨always.numbered, always.served, ?_, always.page⟩, ?_⟩
  · intro _
    exact ⟨inside.entries, inside.nextSeq⟩
  · intro j other
    exact undisturbed_owned other inside.owned (.inr rfl) Feed.SameView.refl le_rfl rfl

/-- The owner of the lock may change the logbook, with an event that is recorded. -/
theorem guaranteed_owned {entries : List LogEntry} {nextSeq : ℕ}
    (events : List (FeedEvent ι LogEntry)) (always : Orderly capacity client page now)
    (owned : now.owner = some i)
    (numbered : Feed.Numbered LogEntry.seq (events ++ now.feed))
    (own : client i → Feed.Served LogEntry.seq capacity i (events ++ now.feed))
    (others : ∀ j, j ≠ i → ∀ event ∈ events, ¬ Feed.Concerns j event)
    (grows : page now.page (Feed.pushCount (events ++ now.feed))) :
    (logDiscipline capacity client page).Guaranteed i now
      { now with entries := entries, nextSeq := nextSeq, feed := events ++ now.feed } := by
  have views : ∀ j, j ≠ i → Feed.SameView LogEntry.seq capacity j now.feed (events ++ now.feed) ∧
      (client j → Feed.Served LogEntry.seq capacity j (events ++ now.feed)) := by
    intro j other
    have concerns := others j other
    clear numbered own others grows
    induction events with
    | nil => exact ⟨Feed.SameView.refl, always.served j⟩
    | cons event events ih =>
        have first := concerns event List.mem_cons_self
        have later := ih fun event mem => concerns event (List.mem_cons_of_mem _ mem)
        exact ⟨later.1.trans (Feed.sameView_cons first),
          fun isClient => Feed.served_cons first (later.2 isClient)⟩
  refine ⟨⟨numbered, ?_, ?_, grows⟩, ?_⟩
  · intro j isClient
    by_cases same : j = i
    · subst same
      exact own isClient
    · exact (views j same).2 isClient
  · intro free
    rw [show now.owner = none from free] at owned
    cases owned
  · intro j other
    refine undisturbed_owned other owned (.inl owned) (views j other).1 ?_ rfl
    rw [Feed.pushCount_append]
    omega

/-! ## The functions of the logbook -/

variable {meets : (logSystem ι capacity).Condition}

theorem upholds_call {request : LogCall} {pre : LogState ι → Prop}
    {post : request.Reply → LogState ι → Prop}
    (stable : Stable (logDiscipline capacity client page) i pre)
    (stableAfter : ∀ reply, Stable (logDiscipline capacity client page) i (post reply))
    (step : ∀ now reply after, pre now → Orderly capacity client page now →
      logStep capacity i now request reply after → meets i now request reply →
        (logDiscipline capacity client page).Guaranteed i now after ∧ post reply after) :
    Upholds (logDiscipline capacity client page) meets i pre request.perform post :=
  upholds_perform stable stableAfter step

/-- A body that needs the lock and leaves the logbook settled. -/
theorem upholds_locked {α : Type} {body : Program LogInterface α} {post : α → Known ι}
    (steady : Steady capacity i known) (steadyPost : ∀ result, Steady capacity i (post result))
    (upholds : Upholds (logDiscipline capacity client page) meets i (Inside capacity i known) body
      fun result => Inside capacity i (post result)) :
    Upholds (logDiscipline capacity client page) meets i (Outside i known) (locked body)
      fun result => Outside i (post result) := by
  have acquires : Upholds (logDiscipline capacity client page) meets i (Outside i known)
      LogCall.acquire.perform fun _ => Inside capacity i known := by
    apply upholds_call (stable_outside steady) fun _ => stable_ahead steady
    intro now reply after outside always taken _
    rcases taken with ⟨free, rfl⟩
    have settled := always.settled free
    exact ⟨guaranteed_acquire always free, rfl, settled.entries, settled.nextSeq, outside.knows⟩
  apply acquires.bind
  intro _
  apply upholds.bind
  intro result
  have releases : Upholds (logDiscipline capacity client page) meets i
      (Inside capacity i (post result)) LogCall.release.perform
      fun _ => Outside i (post result) := by
    apply upholds_call (stable_ahead (steadyPost result))
      fun _ => stable_outside (steadyPost result)
    intro now reply after inside always taken _
    cases taken
    refine ⟨guaranteed_release always inside, ?_, inside.knows⟩
    exact Option.some_ne_none i ∘ Eq.symm
  apply releases.bind
  intro _
  exact upholds_pure (stable_outside (steadyPost result)) fun _ holds => holds

/-- Inside, the numbers start behind this one. -/
structure Numbering (capacity : ℕ) (i : ι) (extra : ℕ) (seq : ℕ) (state : LogState ι) : Prop
    extends Ahead capacity i extra nothing state where
  isNext : seq = Feed.pushCount state.feed + 1

theorem stable_numbering {extra seq : ℕ} :
    Stable (logDiscipline capacity client page) i (Numbering capacity i extra seq) := by
  intro before now holds relied
  refine ⟨stable_ahead steady_nothing before now holds.toAhead relied, ?_⟩
  rw [(relied.locked holds.owned).2.2.1]
  exact holds.isNext

/-- The invariant of the page does not mind more entries. -/
def Growing (page : Page ι → ℕ → Prop) : Prop :=
  ∀ current count more, page current count → count ≤ more → page current more

theorem upholds_appendLine {level : Level} {source line : Text} (growing : Growing page) :
    Upholds (logDiscipline capacity client page) meets i (Inside capacity i nothing)
      (appendLine level source line) fun _ => Inside capacity i nothing := by
  have numbers : Upholds (logDiscipline capacity client page) meets i (Inside capacity i nothing)
      LogCall.readNextSeq.perform fun seq : ℕ => Numbering capacity i 0 seq := by
    apply upholds_call (stable_ahead steady_nothing) fun _ => stable_numbering
    intro now seq after inside always taken _
    rcases taken with ⟨rfl, rfl⟩
    exact ⟨guaranteed_unchanged always, inside, inside.nextSeq⟩
  apply numbers.bind
  intro seq
  have stamps : Upholds (logDiscipline capacity client page) meets i (Numbering capacity i 0 seq)
      LogCall.now.perform fun _ : Text => Numbering capacity i 0 seq := by
    apply upholds_call stable_numbering fun _ => stable_numbering
    intro now ts after holds always taken _
    cases taken
    exact ⟨guaranteed_unchanged always, holds⟩
  apply stamps.bind
  intro ts
  have stableSame : ∀ nextSeq : ℕ, Stable (logDiscipline capacity client page) i
      fun state => Numbering capacity i 0 seq state ∧ nextSeq = seq :=
    fun nextSeq before now holds relied =>
      ⟨stable_numbering before now holds.1 relied, holds.2⟩
  have reads : Upholds (logDiscipline capacity client page) meets i (Numbering capacity i 0 seq)
      LogCall.readNextSeq.perform
      fun (nextSeq : ℕ) state => Numbering capacity i 0 seq state ∧ nextSeq = seq := by
    refine upholds_call stable_numbering stableSame ?_
    intro now nextSeq after holds always taken _
    rcases taken with ⟨rfl, rfl⟩
    exact ⟨guaranteed_unchanged always, holds, holds.nextSeq.trans holds.isNext.symm⟩
  apply reads.bind
  intro (nextSeq : ℕ)
  have writes : Upholds (logDiscipline capacity client page) meets i
      (fun state => Numbering capacity i 0 seq state ∧ nextSeq = seq)
      (LogCall.writeNextSeq (nextSeq + 1)).perform fun _ => Numbering capacity i 1 seq := by
    apply upholds_call (stableSame nextSeq) fun _ => stable_numbering
    intro now reply after holds always taken _
    rcases holds with ⟨holds, rfl⟩
    cases taken
    refine ⟨guaranteed_owned [] always holds.owned always.numbered (always.served i)
      (fun j other event mem => absurd mem List.not_mem_nil) always.page, ?_⟩
    exact ⟨⟨holds.owned, holds.entries, congrArg (· + 1) holds.isNext, trivial⟩, holds.isNext⟩
  apply writes.bind
  intro _
  have pushes : Upholds (logDiscipline capacity client page) meets i (Numbering capacity i 1 seq)
      (LogCall.push ⟨seq, ts, level, source, line⟩).perform
      fun _ => Inside capacity i nothing := by
    apply upholds_call stable_numbering fun _ => stable_ahead steady_nothing
    intro now reply after holds always taken _
    cases taken
    refine ⟨guaranteed_owned [.pushed ⟨seq, ts, level, source, line⟩] always
      holds.owned ⟨holds.isNext, always.numbered⟩ (always.served i) ?_ ?_, ?_⟩
    · intro j other event mem
      rw [List.mem_singleton.mp mem]
      exact id
    · exact growing _ _ _ always.page (Nat.le_succ _)
    · refine ⟨holds.owned, ?_, ?_, trivial⟩
      · dsimp only
        rw [holds.entries, Feed.kept]
      · exact holds.nextSeq
  apply pushes.bind
  intro _
  exact upholds_pure (stable_ahead steady_nothing) fun _ holds => holds

theorem upholds_append {message source : Text} {level : Level} (growing : Growing page) :
    Upholds (logDiscipline capacity client page) meets i (Outside i nothing)
      (append message level source) fun _ => Outside i nothing := by
  have one : ∀ _ : Option LogEntry, ∀ line ∈ linesOf message,
      Upholds (logDiscipline capacity client page) meets i (Outside i nothing)
        (do
          let entry ← locked (appendLine level source line)
          return some entry)
        fun _ => Outside i nothing := by
    intro _ line _
    apply (upholds_locked steady_nothing (fun _ => steady_nothing)
      (upholds_appendLine growing)).bind
    intro entry
    exact upholds_pure (stable_outside steady_nothing) fun _ holds => holds
  rw [append]
  exact upholds_foldlM _ (fun _ => stable_outside steady_nothing) one

theorem upholds_clear :
    Upholds (logDiscipline capacity client page) meets i (Outside i nothing) clear
      fun _ => Outside i nothing := by
  apply upholds_locked steady_nothing fun _ => steady_nothing
  apply upholds_call (stable_ahead steady_nothing) fun _ => stable_ahead steady_nothing
  intro now reply after inside always taken _
  cases taken
  refine ⟨guaranteed_owned [.cleared] always inside.owned always.numbered
    (always.served i) ?_ always.page, ?_⟩
  · intro j other event mem
    rw [List.mem_singleton.mp mem]
    exact id
  · exact ⟨inside.owned, rfl, inside.nextSeq, trivial⟩

/-- `since` looks at the feed once. -/
theorem upholds_since {seq : ℤ} {answer : List LogEntry × ℤ → Known ι}
    (steady : Steady capacity i known) (steadyAnswer : ∀ reply, Steady capacity i (answer reply))
    (ready : client i → ∀ feed current, known feed current → Feed.pending i feed = false)
    (look : ∀ feed current, Feed.Numbered LogEntry.seq feed → known feed current →
      answer (newer (Feed.kept capacity feed) seq, Feed.pushCount feed) (.looked i :: feed)
        current) :
    Upholds (logDiscipline capacity client page) meets i (Outside i known) (since seq)
      fun reply => Outside i (answer reply) := by
  apply upholds_locked steady steadyAnswer
  -- the answer is fixed by the look, its cursor by the numbers at that time
  let seen (entries : List LogEntry) (state : LogState ι) : Prop :=
    Inside capacity i nothing state ∧
      answer (newer entries seq, Feed.pushCount state.feed) state.feed state.page
  have stableSeen : ∀ entries, Stable (logDiscipline capacity client page) i (seen entries) := by
    intro entries before now holds relied
    refine ⟨stable_ahead steady_nothing before now holds.1 relied, ?_⟩
    rw [(relied.locked holds.1.owned).2.2.1]
    exact steadyAnswer _ before now relied holds.2
  have looks : Upholds (logDiscipline capacity client page) meets i (Inside capacity i known)
      LogCall.readEntries.perform seen := by
    refine upholds_call (stable_ahead steady) stableSeen ?_
    intro now entries after inside always taken _
    rcases taken with ⟨rfl, rfl⟩
    refine ⟨guaranteed_owned [.looked i] always inside.owned always.numbered ?_ ?_
      always.page, ?_⟩
    · intro isClient
      exact ⟨fun _ => ready isClient now.feed now.page inside.knows, always.served i isClient⟩
    · intro j other event mem
      rw [List.mem_singleton.mp mem]
      exact fun same => other same.symm
    · refine ⟨⟨inside.owned, inside.entries, inside.nextSeq, trivial⟩, ?_⟩
      rw [inside.entries]
      exact look now.feed now.page always.numbered inside.knows
  apply looks.bind
  intro entries
  have numbers : Upholds (logDiscipline capacity client page) meets i (seen entries)
      LogCall.readNextSeq.perform
      fun nextSeq : ℕ => Inside capacity i (answer (newer entries seq, (nextSeq : ℤ) - 1)) := by
    apply upholds_call (stableSeen entries) fun nextSeq => stable_ahead (steadyAnswer _)
    intro now (nextSeq : ℕ) after holds always taken _
    rcases taken with ⟨isNext, unchanged⟩
    have counted : (nextSeq : ℤ) - 1 = Feed.pushCount now.feed := by
      rw [isNext, holds.1.nextSeq]
      omega
    rw [unchanged]
    refine ⟨guaranteed_unchanged always, holds.1.owned, holds.1.entries, holds.1.nextSeq, ?_⟩
    rw [counted]
    exact holds.2
  apply numbers.bind
  intro (nextSeq : ℕ)
  exact upholds_pure (stable_ahead (steadyAnswer _)) fun _ holds => holds

/-! ## Clients -/

/-- The client is not waiting, and this is the cursor of its previous reply. -/
def Polled (i : ι) (cursor : ℤ) : Known ι :=
  fun feed _ => Feed.pending i feed = false ∧ cursor = Feed.cursorOf i feed

/-- The client waits for this reply. -/
def Awaits (capacity : ℕ) (i : ι) (reply : List LogEntry × ℤ) : Known ι :=
  fun feed _ => Feed.pending i feed = true ∧
    reply.1 = Feed.expected LogEntry.seq capacity i feed ∧ reply.2 = Feed.cursorOf i feed

theorem steady_polled {cursor : ℤ} : Steady capacity i (Polled i cursor) := by
  intro before now relied holds
  refine ⟨relied.view.pending.trans holds.1, ?_⟩
  rw [relied.view.cursor]
  exact holds.2

theorem steady_awaits {reply : List LogEntry × ℤ} :
    Steady capacity i (Awaits capacity i reply) := by
  intro before now relied holds
  refine ⟨relied.view.pending.trans holds.1, ?_, ?_⟩
  · rw [relied.view.expected]
    exact holds.2.1
  · rw [relied.view.cursor]
    exact holds.2.2

theorem awaits_look {cursor : ℤ} {feed : List (FeedEvent ι LogEntry)} {current : Page ι}
    (holds : Polled i cursor feed current) :
    Awaits capacity i (newer (Feed.kept capacity feed) cursor, Feed.pushCount feed)
      (.looked i :: feed) current := by
  refine ⟨if_pos rfl, ?_, ?_⟩
  · rw [Feed.expected, if_pos rfl, newer, holds.2]
    simp only [Nat.cast_lt]
  · rw [Feed.cursorOf, if_pos rfl]

theorem upholds_pollRounds (polls : ℕ) (cursor : ℤ) :
    Upholds (logDiscipline capacity client page) meets i (Outside i (Polled i cursor))
      (pollRounds polls cursor) fun _ => Outside i nothing := by
  induction polls generalizing cursor with
  | zero =>
      exact upholds_pure (stable_outside steady_nothing) fun _ holds => ⟨holds.outside, trivial⟩
  | succ polls ih =>
      have asks : Upholds (logDiscipline capacity client page) meets i
          (Outside i (Polled i cursor)) (since cursor)
          fun reply => Outside i (Awaits capacity i reply) := by
        apply upholds_since steady_polled fun _ => steady_awaits
        · intro _ feed current holds
          exact holds.1
        · intro feed current _ holds
          exact awaits_look holds
      apply asks.bind
      intro reply
      have delivers : Upholds (logDiscipline capacity client page) meets i
          (Outside i (Awaits capacity i reply)) (LogCall.deliver reply.1).perform
          fun _ => Outside i (Polled i reply.2) := by
        apply upholds_call (stable_outside steady_awaits) fun _ => stable_outside steady_polled
        intro now _ after holds always taken _
        cases taken
        rcases holds.knows with ⟨isPending, isExpected, isCursor⟩
        refine ⟨⟨⟨always.numbered, ?_, ?_, always.page⟩, ?_⟩, holds.outside, if_pos rfl, isCursor⟩
        · intro j isClient
          by_cases same : i = j
          · subst same
            exact ⟨fun _ => ⟨isPending, isExpected⟩, always.served i isClient⟩
          · exact Feed.served_cons same (always.served j isClient)
        · intro free
          have settled := always.settled free
          exact ⟨settled.entries, settled.nextSeq⟩
        · intro j other
          exact ⟨Iff.rfl, fun _ => ⟨rfl, rfl, rfl, rfl⟩, Feed.sameView_cons (Ne.symm other), le_rfl,
            rfl⟩
      apply delivers.bind
      intro _
      exact ih reply.2

/-! ## The page -/

/-- What a reply of `since` is, whenever it arrives. -/
structure Fresh (since : ℤ) (reply : List LogEntry × ℤ) : Prop where
  increasing : reply.1.Pairwise fun one two => one.seq < two.seq
  newer : ∀ entry ∈ reply.1, since < entry.seq
  bounded : ∀ entry ∈ reply.1, (entry.seq : ℤ) ≤ reply.2
  forward : since ≤ reply.2

/-- An invariant of the page that what happens to the page keeps. -/
structure PageLaw (page : Page ι → ℕ → Prop) (meets : (logSystem ι capacity).Condition) :
    Prop where
  growing : Growing page
  behind : ∀ current count, page current count → current.logCursor ≤ count
  asks : ∀ current count asked, page current count → page { current with asked := asked } count
  clears : ∀ current count, page current count → page { current with console := [] } count
  receives : ∀ i now since reply, meets i now (.receive reply.1 reply.2) true →
    page now.page (Feed.pushCount now.feed) → now.page.asked i = some since →
    Fresh since reply → reply.2 ≤ Feed.pushCount now.feed →
      page (now.page.receive reply.1 reply.2) (Feed.pushCount now.feed)

/-- The thread has sent this cursor. -/
def Asked (i : ι) (since : ℤ) : Known ι :=
  fun feed current => current.asked i = some since ∧ since ≤ Feed.pushCount feed

/-- The backend has answered the request with this cursor. -/
def Replied (i : ι) (since : ℤ) (reply : List LogEntry × ℤ) : Known ι :=
  fun feed current => current.asked i = some since ∧ Fresh since reply ∧
    reply.2 ≤ Feed.pushCount feed

theorem steady_asked {since : ℤ} : Steady capacity i (Asked i since) := by
  intro before now relied holds
  have grown := relied.grown
  refine ⟨relied.asked.trans holds.1, holds.2.trans ?_⟩
  omega

theorem steady_replied {since : ℤ} {reply : List LogEntry × ℤ} :
    Steady capacity i (Replied i since reply) := by
  intro before now relied holds
  have grown := relied.grown
  refine ⟨relied.asked.trans holds.1, holds.2.1, holds.2.2.trans ?_⟩
  omega

omit [DecidableEq ι] in
theorem fresh_look {since : ℤ} {feed : List (FeedEvent ι LogEntry)}
    (numbered : Feed.Numbered LogEntry.seq feed) (forward : since ≤ Feed.pushCount feed) :
    Fresh since (newer (Feed.kept capacity feed) since, Feed.pushCount feed) := by
  refine ⟨(Feed.increasing_kept numbered).sublist List.filter_sublist, ?_, ?_, forward⟩
  · intro entry mem
    exact of_decide_eq_true (List.mem_filter.mp mem).2
  · intro entry mem
    exact Int.ofNat_le.mpr (Feed.seq_le_of_mem_kept numbered (List.mem_filter.mp mem).1)

/-- A change of the page alone. -/
theorem guaranteed_page {current : Page ι} (always : Orderly capacity client page now)
    (holds : page current (Feed.pushCount now.feed))
    (asked : ∀ j, j ≠ i → current.asked j = now.page.asked j) :
    (logDiscipline capacity client page).Guaranteed i now { now with page := current } := by
  refine ⟨⟨always.numbered, always.served, ?_, holds⟩, ?_⟩
  · intro free
    have settled := always.settled free
    exact ⟨settled.entries, settled.nextSeq⟩
  · intro j other
    exact ⟨Iff.rfl, fun _ => ⟨rfl, rfl, rfl, rfl⟩, Feed.SameView.refl, le_rfl, asked j other⟩

theorem upholds_pollLogs (law : PageLaw page meets) (notClient : ¬ client i) :
    Upholds (logDiscipline capacity client page) meets i (Outside i nothing) pollLogs
      fun _ => Outside i nothing := by
  have asks : Upholds (logDiscipline capacity client page) meets i (Outside i nothing)
      LogCall.readCursor.perform fun since : ℤ => Outside i (Asked i since) := by
    apply upholds_call (stable_outside steady_nothing) fun _ => stable_outside steady_asked
    intro now since after holds always taken _
    rcases taken with ⟨rfl, rfl⟩
    refine ⟨guaranteed_page always (law.asks _ _ _ always.page) ?_, holds.outside, ?_⟩
    · intro j other
      exact Function.update_of_ne other _ _
    · exact ⟨Function.update_self i _ _, law.behind _ _ always.page⟩
  apply asks.bind
  intro sent
  have answers : Upholds (logDiscipline capacity client page) meets i (Outside i (Asked i sent))
      (since sent) fun reply => Outside i (Replied i sent reply) := by
    apply upholds_since steady_asked fun _ => steady_replied
    · exact fun isClient => absurd isClient notClient
    · intro feed current numbered holds
      exact ⟨holds.1, fresh_look numbered holds.2, le_rfl⟩
  apply answers.bind
  intro reply
  have receives : Upholds (logDiscipline capacity client page) meets i
      (Outside i (Replied i sent reply)) (LogCall.receive reply.1 reply.2).perform
      fun _ => Outside i nothing := by
    apply upholds_call (stable_outside steady_replied) fun _ => stable_outside steady_nothing
    intro now arrived after holds always taken condition
    rcases holds.knows with ⟨asked, fresh, bounded⟩
    cases arrived with
    | true =>
        cases taken
        have kept := law.receives i now sent reply condition always.page asked fresh bounded
        exact ⟨guaranteed_page always kept fun _ _ => rfl, holds.outside, trivial⟩
    | false =>
        cases taken
        exact ⟨guaranteed_unchanged always, holds.outside, trivial⟩
  apply receives.bind
  intro _
  exact upholds_pure (stable_outside steady_nothing) fun _ holds => holds

theorem upholds_clearLogs (law : PageLaw page meets) :
    Upholds (logDiscipline capacity client page) meets i (Outside i nothing) clearLogs
      fun _ => Outside i nothing := by
  apply upholds_clear.bind
  intro _
  have empties : Upholds (logDiscipline capacity client page) meets i (Outside i nothing)
      LogCall.clearConsole.perform fun _ => Outside i nothing := by
    apply upholds_call (stable_outside steady_nothing) fun _ => stable_outside steady_nothing
    intro now _ after holds always taken _
    cases taken
    exact ⟨guaranteed_page always (law.clears _ _ always.page) fun _ _ => rfl, holds.outside,
      trivial⟩
  apply empties.bind
  intro _
  exact upholds_pure (stable_outside steady_nothing) fun _ holds => holds

/-! ## Every run -/

theorem upholds_serve (law : PageLaw page meets) (notClient : ¬ client i) (request : LogRequest) :
    Upholds (logDiscipline capacity client page) meets i (Outside i nothing) request.serve
      fun _ => Outside i nothing := by
  have ends : ∀ {α : Type} {body : Program LogInterface α},
      Upholds (logDiscipline capacity client page) meets i (Outside i nothing) body
        (fun _ => Outside i nothing) →
      Upholds (logDiscipline capacity client page) meets i (Outside i nothing)
        (do let _ ← body) fun _ => Outside i nothing := by
    intro α body upholds
    apply upholds.bind
    intro _
    exact upholds_pure (stable_outside steady_nothing) fun _ holds => holds
  cases request with
  | append message level source => exact ends (upholds_append law.growing)
  | since seq =>
      apply ends
      apply upholds_since steady_nothing fun _ => steady_nothing
      · exact fun isClient => absurd isClient notClient
      · exact fun _ _ _ _ => trivial
  | clear => exact upholds_clear

/-- What a thread knows before its first call: nobody has looked in its place. -/
def AtStart (client : ι → Prop) (i : ι) : Known ι :=
  fun feed current => client i → Polled i 0 feed current

theorem upholds_run (law : PageLaw page meets) {user : LogUser}
    (isClient : client i ↔ user.isClient) :
    Upholds (logDiscipline capacity client page) meets i (Outside i (AtStart client i)) user.run
      fun _ => Outside i nothing := by
  have forgets : ∀ state, Outside i (AtStart client i) state → Outside i nothing state :=
    fun state holds => ⟨holds.outside, trivial⟩
  cases user with
  | client polls =>
      refine (upholds_pollRounds polls 0).weaken ?_ fun _ _ holds => holds
      exact fun state holds => ⟨holds.outside, holds.knows (isClient.mpr trivial)⟩
  | worker requests =>
      have notClient : ¬ client i := fun own => isClient.mp own
      refine Upholds.weaken ?_ forgets fun _ _ holds => holds
      exact upholds_foldlM _ (fun _ => stable_outside steady_nothing)
        fun _ request _ => upholds_serve law notClient request
  | tick =>
      have notClient : ¬ client i := fun own => isClient.mp own
      exact (upholds_pollLogs law notClient).weaken forgets fun _ _ holds => holds
  | clearButton => exact (upholds_clearLogs law).weaken forgets fun _ _ holds => holds

/-- The discipline holds along every run. -/
theorem orderly_of_reaches {users : ι → LogUser} {pool : Pool (logSystem ι capacity) Unit}
    (law : PageLaw page meets) (initially : page (logStart capacity users).shared.page 0)
    (reaches : Pool.Reaches meets (logStart capacity users) pool) :
    Orderly capacity (fun i => (users i).isClient) page pool.shared := by
  have start : Orderly capacity (fun i => (users i).isClient) page
      (logStart capacity users).shared :=
    ⟨trivial, fun _ _ => trivial, fun _ => ⟨rfl, rfl⟩, initially⟩
  have keeps : ∀ i, Keeps (logDiscipline capacity (fun i => (users i).isClient) page) meets i
      ((logStart capacity users).thread i) (fun _ => Outside i nothing)
      (logStart capacity users).shared := by
    intro i
    apply upholds_run law Iff.rfl
    exact ⟨Option.some_ne_none i ∘ Eq.symm, fun _ => ⟨rfl, rfl⟩⟩
  have drifts : ∀ before now, Orderly capacity (fun i => (users i).isClient) page before →
      (logSystem ι capacity).drift before now →
      (logDiscipline capacity (fun i => (users i).isClient) page).Unnoticed before now :=
    fun _ _ _ drifted => drifted.elim
  exact (Pool.reaches_keeps drifts start keeps reaches).1

/-- No condition on the run. -/
abbrev anyLogCall : (logSystem ι capacity).Condition := fun _ _ _ _ => True

theorem pageLaw_behind :
    PageLaw (fun (current : Page ι) (count : ℕ) => current.logCursor ≤ (count : ℤ))
      (anyLogCall : (logSystem ι capacity).Condition) where
  growing := fun _ _ _ behind more => behind.trans (Int.ofNat_le.mpr more)
  behind := fun _ _ behind => behind
  asks := fun _ _ _ behind => behind
  clears := fun _ _ behind => behind
  receives := fun _ _ _ _ _ _ _ _ bounded => bounded

/-- However appends, clears and looks interleave, a client that passes back its cursors gets
entries with increasing numbers, and an appended line exactly once unless it was cleared or
pushed out before the client's next poll. -/
theorem delivered_once (users : ι → LogUser) {polls : ℕ} (isClient : users i = .client polls)
    {pool : Pool (logSystem ι capacity) Unit}
    (reaches : Pool.Reaches anyLogCall (logStart capacity users) pool) :
    (Feed.deliveredTo i pool.shared.feed).Pairwise (fun one two => one.seq < two.seq) ∧
      ∀ entry, Feed.AnsweredInTime capacity i entry pool.shared.feed →
        (Feed.deliveredTo i pool.shared.feed).count entry = 1 := by
  have orderly := orderly_of_reaches pageLaw_behind (le_refl 0) reaches
  have served : Feed.Served LogEntry.seq capacity i pool.shared.feed := by
    apply orderly.served
    rw [isClient]
    exact trivial
  refine ⟨Feed.increasing_deliveredTo orderly.numbered served, ?_⟩
  intro entry inTime
  exact Feed.count_deliveredTo_of_answeredInTime orderly.numbered served inTime

end Threads

/-- A client that polls three times, a worker that appends lines, and one that clears the logbook
as well. -/
def oneReader : Fin 3 → LogUser
  | 0 => .client 3
  | 1 => .worker [.append (text "a\nb") .info (text "api"), .append (text "d") .info (text "api")]
  | 2 => .worker [.append (text "c") .info (text "dump"), .clear]

/-- A line comes between the two of one message, the logbook is cleared between two polls, and the
client gets every line once. -/
theorem delivered_once_oneReader : ∃ pool : Pool (logSystem (Fin 3) 2000) Unit,
    Feed.deliveredTo 0 pool.shared.feed =
        [⟨1, [], .info, text "api", text "a"⟩, ⟨2, [], .info, text "dump", text "c"⟩,
          ⟨3, [], .info, text "api", text "b"⟩, ⟨4, [], .info, text "api", text "d"⟩] ∧
      (Feed.deliveredTo 0 pool.shared.feed).Pairwise (fun one two => one.seq < two.seq) ∧
      ∀ entry, Feed.AnsweredInTime 2000 0 entry pool.shared.feed →
        (Feed.deliveredTo 0 pool.shared.feed).count entry = 1 := by
  let order : List (Fin 3) := List.replicate 7 1 ++ List.replicate 5 0 ++ List.replicate 7 2 ++
    List.replicate 7 1 ++ List.replicate 5 0 ++ List.replicate 3 2 ++ List.replicate 7 1 ++
    List.replicate 5 0
  have scheduled : Pool.schedule (logAnswer 2000) order (logStart 2000 oneReader) = some _ := rfl
  have reaches := Pool.reaches_of_schedule
    (fun _ _ _ _ _ answered => ⟨step_of_logAnswer answered, trivial⟩) scheduled
  exact ⟨_, rfl, delivered_once oneReader rfl reaches⟩

end Ksnap.Panel.Logbook
