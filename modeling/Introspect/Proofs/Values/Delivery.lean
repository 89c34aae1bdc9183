import Introspect.Proofs.Values.Heap
import Mathlib.Data.List.Nodup

/-!
Delivery of the values written to a holder.

Holders are written and signals are made, shared, emptied and dropped in any order. Beside the heap a
ledger is kept of what was done: it knows no channel and no subscriber, only which values were written
since a signal was asked for and which were taken through it or a clone of it. What the heap answers at
any time is read off the ledger.

* `Act`, `Session.perform`: what is done, and what it answers.
* `Ledger.record`: the ledger.
* `setHeld_spec`: what a write does to holders and channels.
* `Tracks`, `Tracks.perform`: how heap and ledger belong together, act by act.
* `written_values_delivered`: every run delivers what was written, in order and once.
-/

namespace Introspect

/-! ## Acts -/

/-- Holders are named by the order of their creation, signals by the order in which they were handed
out; a clone is a signal of its own. -/
inductive Act where
  | create (v : Value)
  | set (holder : Nat) (v : Value)
  | observe (holder : Nat)
  | tryNext (signal : Nat)
  | drain (signal : Nat)
  | clone (signal : Nat)
  | drop (signal : Nat)
  /-- Whatever else is done on the heap. -/
  | elsewhere (objects : Array (Dict String Value)) (sequences : Array (List Value))
      (maps : Array (Dict Value Value))

structure Session where
  heap : Heap
  /-- Every signal handed out, until it is dropped. -/
  signals : List (Option Signal)

namespace Session

def signal? (s : Session) (k : Nat) : Option Signal := (s.signals[k]?).join

/-- The values an act answers with; none when there is no such holder or signal. A write answers with
the value it replaces. -/
def perform (s : Session) : Act → Option (List Value × Session)
  | .create v => some ([], { s with heap := (s.heap.allocHolder v).2 })
  | .set i v =>
    if i < s.heap.holders.size then
      some ([s.heap.held i], { s with heap := s.heap.setHeld i v })
    else none
  | .observe i =>
    if i < s.heap.holders.size then
      let (signal, heap) := s.heap.subscribe i
      some ([], ⟨heap, s.signals ++ [some signal]⟩)
    else none
  | .tryNext k => do
    let signal ← s.signal? k
    let (v?, heap) := signal.tryNext s.heap
    some (v?.toList, { s with heap })
  | .drain k => do
    let signal ← s.signal? k
    let (vs, heap) := signal.drain s.heap
    some (vs, { s with heap })
  | .clone k => do
    let signal ← s.signal? k
    some ([], ⟨signal.clone s.heap, s.signals ++ [some signal]⟩)
  | .drop k => do
    let signal ← s.signal? k
    some ([], ⟨signal.drop s.heap, s.signals.set k none⟩)
  | .elsewhere objects sequences maps =>
    some ([], { s with heap := { s.heap with objects, sequences, maps } })

end Session

/-! ## The ledger -/

structure Subscription where
  holder : Nat
  /-- Values written to the holder since, oldest first. -/
  written : List Value
  /-- Values taken through any of its signals, in the order of time. -/
  taken : List Value

structure Ledger where
  /-- Of every holder its values, the initial one first. -/
  values : List (List Value)
  subscriptions : List Subscription
  /-- Of every signal its subscription, until it is dropped. -/
  signals : List (Option Nat)

namespace Ledger

def empty : Ledger := ⟨[], [], []⟩

def subscription? (l : Ledger) (k : Nat) : Option Nat := (l.signals[k]?).join

/-- Values were taken through a signal. -/
def take (l : Ledger) (k : Nat) (vs : List Value) : Ledger :=
  match l.subscription? k with
  | none => l
  | some c =>
    { l with subscriptions := l.subscriptions.modify c fun sub =>
        { sub with taken := sub.taken ++ vs } }

def record (l : Ledger) (act : Act) (answer : List Value) : Ledger :=
  match act with
  | .create v => { l with values := l.values ++ [[v]] }
  | .set i v =>
    { l with
      values := l.values.modify i (· ++ [v])
      subscriptions := l.subscriptions.map fun sub =>
        if sub.holder = i then { sub with written := sub.written ++ [v] } else sub }
  | .observe i =>
    { l with
      subscriptions := l.subscriptions ++ [⟨i, [], []⟩]
      signals := l.signals ++ [some l.subscriptions.length] }
  | .tryNext k | .drain k => l.take k answer
  | .clone k => { l with signals := l.signals ++ [l.subscription? k] }
  | .drop k => { l with signals := l.signals.set k none }
  | .elsewhere .. => l

/-- Some signal of the subscription was not dropped. -/
def Live (l : Ledger) (c : Nat) : Prop := some c ∈ l.signals

instance (l : Ledger) (c : Nat) : Decidable (l.Live c) := by unfold Live; infer_instance

/-- The live subscriptions of a holder. -/
def liveOf (l : Ledger) (i : Nat) : List Nat :=
  (List.range l.subscriptions.length).filter fun c =>
    (l.subscriptions[c]?).map (·.holder) = some i ∧ l.Live c

end Ledger

/-! ## Runs -/

/-- A session and the ledger of what was done in it. -/
structure Recorded where
  session : Session
  ledger : Ledger

namespace Recorded

/-- What cannot be done is left out. -/
def step (r : Recorded) (act : Act) : Recorded :=
  match r.session.perform act with
  | none => r
  | some (answer, session) => ⟨session, r.ledger.record act answer⟩

def run (acts : List Act) : Recorded := acts.foldl step ⟨⟨.empty, []⟩, .empty⟩

/-- Every signal that was not dropped has a subscription. The values taken through its signals, then
those waiting for the signal, are the values written since. -/
def Delivers (r : Recorded) : Prop :=
  ∀ k c : Nat, r.ledger.signals[k]? = some (some c) → ∃ signal sub,
    r.session.signals[k]? = some (some signal) ∧ r.ledger.subscriptions[c]? = some sub ∧
      sub.taken ++ signal.pending r.session.heap = sub.written

/-- Every holder holds the value written last, or else its initial one. -/
def HoldsLast (r : Recorded) : Prop :=
  r.session.heap.holders.size = r.ledger.values.length ∧
    ∀ i vs, r.ledger.values[i]? = some vs → vs.getLast? = some (r.session.heap.held i)

/-- A write to the holder is done, answers with the value written before, and leaves it exactly as
many subscribers as it has live subscriptions. -/
def ReportsWrite (r : Recorded) (i : Nat) (v : Value) : Prop :=
  ∃ vs previous session, r.ledger.values[i]? = some vs ∧ vs.getLast? = some previous ∧
    r.session.perform (.set i v) = some ([previous], session) ∧
    session.heap.subscriberCount i =
      ((r.ledger.record (.set i v) [previous]).liveOf i).length

end Recorded

/-! ## Channels -/

namespace Heap

variable (h : Heap)

theorem channelAt_setChannel {c : Nat} (hc : c < h.channels.size) (d : Nat) (ch : Channel) :
    (h.setChannel c ch).channelAt d = if d = c then ch else h.channelAt d := by
  unfold channelAt setChannel
  by_cases hd : d = c
  · simp [hd, hc]
  · simp [hd, Ne.symm hd]

theorem setChannel_size (c : Nat) (ch : Channel) :
    (h.setChannel c ch).channels.size = h.channels.size := by
  simp [setChannel]

/-- A value published to channels, each of them once. -/
theorem foldl_publish (v : Value) {live : List Nat} (hn : live.Nodup)
    (hlive : ∀ c ∈ live, c < h.channels.size) :
    (live.foldl (fun h c => h.publish v c) h).holders = h.holders ∧
    (live.foldl (fun h c => h.publish v c) h).channels.size = h.channels.size ∧
    ∀ d, (live.foldl (fun h c => h.publish v c) h).channelAt d =
      if d ∈ live then { h.channelAt d with pending := (h.channelAt d).pending ++ [v] }
      else h.channelAt d := by
  induction live generalizing h with
  | nil => exact ⟨rfl, rfl, fun d => by simp⟩
  | cons c live ih =>
    obtain ⟨hc, hn⟩ := List.nodup_cons.1 hn
    have hsize : (h.publish v c).channels.size = h.channels.size := h.setChannel_size _ _
    obtain ⟨holders, size, channels⟩ := ih (h.publish v c) hn fun d hd => by
      rw [hsize]
      exact hlive d (List.mem_cons_of_mem _ hd)
    refine ⟨holders, size.trans hsize, fun d => ?_⟩
    rw [List.foldl_cons, channels d, publish,
      h.channelAt_setChannel (hlive c List.mem_cons_self)]
    by_cases hd : d = c
    · subst hd
      simp [hc]
    · simp [hd]

variable (i : Nat) (v : Value)

/-- The subscribers of a holder that still have receivers. -/
def liveSubscribers : List Nat := (h.holderAt i).subscribers.filter h.isLive

/-- What a write needs of the subscribers: each of them once, and on the heap. -/
structure Subscribed : Prop where
  holder : i < h.holders.size
  nodup : (h.holderAt i).subscribers.Nodup
  within : ∀ c ∈ (h.holderAt i).subscribers, c < h.channels.size

namespace Subscribed

variable {h : Heap} {i : Nat} (hs : h.Subscribed i) (v : Value)

include hs

theorem setHeld_spec :
    (h.setHeld i v).holders = h.holders.setIfInBounds i ⟨v, h.liveSubscribers i⟩ ∧
    (h.setHeld i v).channels.size = h.channels.size ∧
    ∀ d, (h.setHeld i v).channelAt d =
      if d ∈ h.liveSubscribers i then
        { h.channelAt d with pending := (h.channelAt d).pending ++ [v] }
      else h.channelAt d :=
  foldl_publish { h with holders := h.holders.setIfInBounds i ⟨v, h.liveSubscribers i⟩ } v
    (hs.nodup.filter _) fun c hc => hs.within c (List.mem_of_mem_filter hc)

theorem setHeld_holderAt (j : Nat) :
    (h.setHeld i v).holderAt j = if j = i then ⟨v, h.liveSubscribers i⟩ else h.holderAt j := by
  unfold holderAt
  rw [(hs.setHeld_spec v).1]
  by_cases hj : j = i
  · simp [hj, hs.holder]
  · simp [hj, Ne.symm hj]

end Subscribed

theorem subscribe_holderAt {i : Nat} (hi : i < h.holders.size) (j : Nat) :
    (h.subscribe i).2.holderAt j =
      if j = i then
        { h.holderAt i with subscribers := (h.holderAt i).subscribers ++ [h.channels.size] }
      else h.holderAt j := by
  unfold subscribe holderAt
  by_cases hj : j = i
  · simp [hj, hi]
  · simp [hj, Ne.symm hj]

theorem subscribe_channelAt {i : Nat} (d : Nat) :
    (h.subscribe i).2.channelAt d = if d = h.channels.size then ⟨[], 1⟩ else h.channelAt d := by
  unfold subscribe channelAt
  by_cases hd : d = h.channels.size
  · simp [hd]
  · simp [hd, Array.getElem?_push]

theorem allocHolder_holderAt (j : Nat) :
    (h.allocHolder v).2.holderAt j = if j = h.holders.size then ⟨v, []⟩ else h.holderAt j := by
  unfold allocHolder holderAt
  by_cases hj : j = h.holders.size
  · simp [hj]
  · simp [hj, Array.getElem?_push]

end Heap

/-! ## Heap and ledger -/

/-- The channel of a subscription: it has a receiver for every live signal, and while there is one its
holder publishes to it and nothing is lost. -/
structure ChannelFits (h : Heap) (l : Ledger) (c : Nat) (sub : Subscription) : Prop where
  placed : sub.holder < h.holders.size
  receivers : (h.channelAt c).receivers = l.signals.count (some c)
  subscribed : l.Live c → c ∈ (h.holderAt sub.holder).subscribers
  delivered : l.Live c → sub.taken ++ (h.channelAt c).pending = sub.written

/-- A holder: its value is the last of its values, its subscribers are subscriptions of its own. -/
structure HolderFits (h : Heap) (l : Ledger) (i : Nat) (vs : List Value) : Prop where
  last : vs.getLast? = some (h.held i)
  nodup : (h.holderAt i).subscribers.Nodup
  owned : ∀ c ∈ (h.holderAt i).subscribers, ∃ sub, l.subscriptions[c]? = some sub ∧ sub.holder = i

/-- What is done later leaves every subscription with its holder. -/
def Ledger.Retains (l l' : Ledger) : Prop :=
  ∀ (c : Nat) (sub : Subscription), l.subscriptions[c]? = some sub →
    ∃ sub', l'.subscriptions[c]? = some sub' ∧ sub'.holder = sub.holder

theorem Ledger.Retains.of_eq {l l' : Ledger} (h : l'.subscriptions = l.subscriptions) :
    l.Retains l' := fun _ sub hc => ⟨sub, h ▸ hc, rfl⟩

variable {h h' : Heap} {l l' : Ledger}

theorem ChannelFits.frame {c : Nat} {sub : Subscription} (hf : ChannelFits h l c sub)
    (size : h.holders.size ≤ h'.holders.size) (channel : h'.channelAt c = h.channelAt c)
    (signals : l'.signals.count (some c) = l.signals.count (some c))
    (subscribers : c ∈ (h.holderAt sub.holder).subscribers →
      c ∈ (h'.holderAt sub.holder).subscribers) : ChannelFits h' l' c sub := by
  have hlive : l'.Live c → l.Live c := by
    intro hc
    apply List.count_pos_iff.1
    rw [← signals]
    exact List.count_pos_iff.2 hc
  refine ⟨Nat.lt_of_lt_of_le hf.placed size, ?_, fun hc => subscribers (hf.subscribed (hlive hc)), fun hc => ?_⟩
  · rw [channel, signals]
    exact hf.receivers
  · rw [channel]
    exact hf.delivered (hlive hc)

theorem HolderFits.frame {i : Nat} {vs : List Value} (hk : HolderFits h l i vs)
    (holder : h'.holderAt i = h.holderAt i) (retains : l.Retains l') : HolderFits h' l' i vs := by
  refine ⟨?_, ?_, fun c hc => ?_⟩
  · rw [Heap.held, holder]
    exact hk.last
  · rw [holder]
    exact hk.nodup
  · rw [holder] at hc
    obtain ⟨sub, hsub, hholder⟩ := hk.owned c hc
    obtain ⟨sub', hsub', hsame⟩ := retains c sub hsub
    exact ⟨sub', hsub', hsame.trans hholder⟩

structure Tracks (s : Session) (l : Ledger) : Prop where
  signals : s.signals = l.signals.map (Option.map Signal.channel)
  holders : s.heap.holders.size = l.values.length
  channels : s.heap.channels.size = l.subscriptions.length
  known : ∀ c, l.Live c → c < l.subscriptions.length
  channel : ∀ c sub, l.subscriptions[c]? = some sub → ChannelFits s.heap l c sub
  holder : ∀ i vs, l.values[i]? = some vs → HolderFits s.heap l i vs

theorem Ledger.live_of_subscription {k c : Nat} (hk : l.subscription? k = some c) :
    l.Live c :=
  List.mem_of_getElem? (Option.join_eq_some_iff.1 hk)

theorem Ledger.mem_liveOf (l : Ledger) {i c : Nat} :
    c ∈ l.liveOf i ↔ ∃ sub, l.subscriptions[c]? = some sub ∧ sub.holder = i ∧ l.Live c := by
  unfold Ledger.liveOf
  rw [List.mem_filter, decide_eq_true_eq, Option.map_eq_some_iff, List.mem_range]
  constructor
  · rintro ⟨-, ⟨sub, hsub, hholder⟩, hlive⟩
    exact ⟨sub, hsub, hholder, hlive⟩
  · rintro ⟨sub, hsub, hholder, hlive⟩
    exact ⟨(List.getElem?_eq_some_iff.1 hsub).1, ⟨sub, hsub, hholder⟩, hlive⟩

theorem Ledger.liveOf_set (l : Ledger) (i j : Nat) (v : Value) (answer : List Value) :
    (l.record (.set i v) answer).liveOf j = l.liveOf j := by
  have hholder : ∀ c : Nat, ((l.record (.set i v) answer).subscriptions[c]?).map (·.holder) =
      (l.subscriptions[c]?).map (·.holder) := by
    intro c
    simp only [Ledger.record, List.getElem?_map, Option.map_map]
    congr 1
    funext sub
    simp only [Function.comp]
    split <;> rfl
  simp only [Ledger.liveOf, hholder, Ledger.Live]
  simp [Ledger.record]

namespace Tracks

variable {s : Session} (ht : Tracks s l)

include ht

theorem signal?_eq (k : Nat) : s.signal? k = (l.subscription? k).map Signal.channel := by
  unfold Session.signal? Ledger.subscription?
  rw [ht.signals, List.getElem?_map]
  cases l.signals[k]? <;> rfl

/-- A signal of the session is one of the ledger, with its channel. -/
theorem channel_of_signal {k : Nat} {signal : Signal} (hk : s.signal? k = some signal) :
    ∃ c sub, signal = .channel c ∧ l.subscription? k = some c ∧ l.Live c ∧
      c < s.heap.channels.size ∧ l.subscriptions[c]? = some sub := by
  rw [ht.signal?_eq] at hk
  obtain ⟨c, hc, rfl⟩ := Option.map_eq_some_iff.1 hk
  have hlive := Ledger.live_of_subscription hc
  have hlt := ht.known c hlive
  exact ⟨c, l.subscriptions[c], rfl, hc, hlive, by rw [ht.channels]; exact hlt,
    List.getElem?_eq_getElem hlt⟩

theorem value_of_holder {i : Nat} (hi : i < s.heap.holders.size) : ∃ vs, l.values[i]? = some vs := by
  rw [ht.holders] at hi
  exact ⟨l.values[i], List.getElem?_eq_getElem hi⟩

theorem subscribed {i : Nat} (hi : i < s.heap.holders.size) : s.heap.Subscribed i := by
  obtain ⟨vs, hvs⟩ := ht.value_of_holder hi
  have hk := ht.holder i vs hvs
  refine ⟨hi, hk.nodup, fun c hc => ?_⟩
  obtain ⟨sub, hsub, -⟩ := hk.owned c hc
  rw [ht.channels]
  exact (List.getElem?_eq_some_iff.1 hsub).1

theorem isLive_iff {c : Nat} {sub : Subscription} (hc : l.subscriptions[c]? = some sub) :
    s.heap.isLive c = true ↔ l.Live c := by
  unfold Heap.isLive
  rw [decide_eq_true_eq, (ht.channel c sub hc).receivers, List.count_pos_iff]
  rfl

/-- What a write publishes to: the live subscriptions of the holder. -/
theorem mem_liveSubscribers {i c : Nat} (hi : i < s.heap.holders.size) :
    c ∈ s.heap.liveSubscribers i ↔
      ∃ sub, l.subscriptions[c]? = some sub ∧ sub.holder = i ∧ l.Live c := by
  obtain ⟨vs, hvs⟩ := ht.value_of_holder hi
  unfold Heap.liveSubscribers
  rw [List.mem_filter]
  constructor
  · rintro ⟨hc, hlive⟩
    obtain ⟨sub, hsub, hholder⟩ := (ht.holder i vs hvs).owned c hc
    exact ⟨sub, hsub, hholder, (ht.isLive_iff hsub).1 hlive⟩
  · rintro ⟨sub, hsub, rfl, hlive⟩
    exact ⟨(ht.channel c sub hsub).subscribed hlive, (ht.isLive_iff hsub).2 hlive⟩

/-! ### One lemma an act -/

theorem create (v : Value) (answer : List Value) :
    Tracks { s with heap := (s.heap.allocHolder v).2 } (l.record (.create v) answer) where
  signals := ht.signals
  holders := by simp [Heap.allocHolder, Ledger.record, ht.holders]
  channels := ht.channels
  known := ht.known
  channel c sub hc := by
    have hf := ht.channel c sub hc
    refine hf.frame (by simp [Heap.allocHolder]) rfl rfl ?_
    rw [Heap.allocHolder_holderAt, if_neg (Nat.ne_of_lt hf.placed)]
    exact id
  holder i vs hi := by
    have hsize : s.heap.holders.size = l.values.length := ht.holders
    rw [Ledger.record, List.getElem?_append] at hi
    split at hi
    · next hlt =>
      refine (ht.holder i vs hi).frame ?_ (.of_eq rfl)
      rw [Heap.allocHolder_holderAt, if_neg (by omega)]
    · next hge =>
      obtain ⟨hi, hvs⟩ : i - l.values.length = 0 ∧ [v] = vs := by
        simpa [List.getElem?_singleton] using hi
      have hnew : (s.heap.allocHolder v).2.holderAt i = ⟨v, []⟩ := by
        rw [Heap.allocHolder_holderAt, if_pos (by omega)]
      subst hvs
      exact ⟨by rw [Heap.held, hnew]; rfl, by rw [hnew]; exact List.nodup_nil,
        by rw [hnew]; exact fun c hc => nomatch hc⟩

theorem set {i : Nat} (hi : i < s.heap.holders.size) (v : Value) (answer : List Value) :
    Tracks { s with heap := s.heap.setHeld i v } (l.record (.set i v) answer) where
  signals := ht.signals
  holders := by simp [((ht.subscribed hi).setHeld_spec v).1, Ledger.record, ht.holders]
  channels := by simp [((ht.subscribed hi).setHeld_spec v).2.1, ht.channels, Ledger.record]
  known c hc := by simpa [Ledger.record] using ht.known c hc
  channel c sub' hc := by
    have hs := ht.subscribed hi
    obtain ⟨sub, hsub, rfl⟩ : ∃ sub, l.subscriptions[c]? = some sub ∧
        (if sub.holder = i then { sub with written := sub.written ++ [v] } else sub) = sub' := by
      simpa [Ledger.record] using hc
    have hf := ht.channel c sub hsub
    have hpublished := ht.mem_liveSubscribers hi (c := c)
    have hchannel := (hs.setHeld_spec v).2.2 c
    have hholders : (s.heap.setHeld i v).holders.size = s.heap.holders.size := by
      rw [(hs.setHeld_spec v).1, Array.size_setIfInBounds]
    by_cases hholder : sub.holder = i
    · rw [if_pos hholder]
      refine ⟨by rw [hholders]; exact hf.placed, ?_, fun hlive => ?_, fun hlive => ?_⟩
      · rw [hchannel]
        split <;> exact hf.receivers
      · rw [hs.setHeld_holderAt v, if_pos hholder]
        exact hpublished.2 ⟨sub, hsub, hholder, hlive⟩
      · rw [hchannel, if_pos (hpublished.2 ⟨sub, hsub, hholder, hlive⟩), ← List.append_assoc,
          hf.delivered hlive]
    · rw [if_neg hholder]
      have hother : c ∉ s.heap.liveSubscribers i := by
        intro hc
        obtain ⟨sub₁, hsub₁, hholder₁, -⟩ := hpublished.1 hc
        rw [hsub] at hsub₁
        exact hholder (Option.some.inj hsub₁ ▸ hholder₁)
      rw [if_neg hother] at hchannel
      refine hf.frame (Nat.le_of_eq hholders.symm) hchannel rfl ?_
      rw [hs.setHeld_holderAt v, if_neg hholder]
      exact id
  holder j vs' hj := by
    have hs := ht.subscribed hi
    have hretains : l.Retains (l.record (.set i v) answer) := by
      intro c sub hsub
      refine ⟨if sub.holder = i then { sub with written := sub.written ++ [v] } else sub,
        by simp [Ledger.record, hsub], ?_⟩
      split <;> rfl
    obtain ⟨vs, hvs, rfl⟩ : ∃ vs, l.values[j]? = some vs ∧ (if i = j then vs ++ [v] else vs) = vs' := by
      rw [Ledger.record, List.getElem?_modify] at hj
      simpa [apply_ite] using hj
    have hk := ht.holder j vs hvs
    by_cases hij : i = j
    · subst hij
      rw [if_pos rfl]
      refine ⟨?_, ?_, fun c hc => ?_⟩
      · rw [Heap.held, hs.setHeld_holderAt v, if_pos rfl, List.getLast?_concat]
      · rw [hs.setHeld_holderAt v, if_pos rfl]
        exact hk.nodup.filter _
      · rw [hs.setHeld_holderAt v, if_pos rfl] at hc
        obtain ⟨sub, hsub, hholder, -⟩ := (ht.mem_liveSubscribers hi).1 hc
        obtain ⟨sub', hsub', hsame⟩ := hretains c sub hsub
        exact ⟨sub', hsub', hsame.trans hholder⟩
    · rw [if_neg hij]
      refine hk.frame ?_ hretains
      rw [hs.setHeld_holderAt v, if_neg (Ne.symm hij)]

theorem observe {i : Nat} (hi : i < s.heap.holders.size) (answer : List Value) :
    Tracks ⟨(s.heap.subscribe i).2, s.signals ++ [some (s.heap.subscribe i).1]⟩
      (l.record (.observe i) answer) where
  signals := by simp [Ledger.record, ht.signals, Heap.subscribe, ht.channels]
  holders := by simp [Heap.subscribe, Ledger.record, ht.holders]
  channels := by simp [Heap.subscribe, Ledger.record, ht.channels]
  known c hc := by
    simp only [Ledger.record, Ledger.Live, List.mem_append, List.mem_singleton, Option.some.injEq,
      List.length_append, List.length_singleton] at hc ⊢
    rcases hc with hc | rfl
    · exact Nat.lt_succ_of_lt (ht.known c hc)
    · exact Nat.lt_succ_self _
  channel c sub hc := by
    have hsize : s.heap.channels.size = l.subscriptions.length := ht.channels
    have hholders : (s.heap.subscribe i).2.holders.size = s.heap.holders.size := by
      simp [Heap.subscribe]
    rw [Ledger.record, List.getElem?_append] at hc
    split at hc
    · next hlt =>
      refine (ht.channel c sub hc).frame (Nat.le_of_eq hholders.symm) ?_ ?_ fun hmem => ?_
      · rw [Heap.subscribe_channelAt, if_neg (by omega)]
      · simp [Ledger.record, Nat.ne_of_gt hlt]
      · rw [Heap.subscribe_holderAt s.heap hi]
        split
        · next hholder => exact List.mem_append_left _ (hholder ▸ hmem)
        · exact hmem
    · next hge =>
      obtain ⟨hc, rfl⟩ : c - l.subscriptions.length = 0 ∧ ⟨i, [], []⟩ = sub := by
        simpa [List.getElem?_singleton] using hc
      obtain rfl : c = l.subscriptions.length := by omega
      have hunknown : ¬ l.Live l.subscriptions.length :=
        fun hlive => Nat.lt_irrefl _ (ht.known _ hlive)
      refine ⟨by rw [hholders]; exact hi, ?_, fun _ => ?_, fun _ => ?_⟩
      · rw [Heap.subscribe_channelAt, if_pos hsize.symm]
        simp [Ledger.record, List.count_eq_zero_of_not_mem hunknown]
      · rw [Heap.subscribe_holderAt s.heap hi, if_pos rfl, hsize]
        exact List.mem_append_right _ (List.mem_singleton_self _)
      · rw [Heap.subscribe_channelAt, if_pos hsize.symm]
        rfl
  holder j vs hj := by
    have hretains : l.Retains (l.record (.observe i) answer) := fun c sub hc =>
      ⟨sub, by simp [Ledger.record, List.getElem?_append_left (List.getElem?_eq_some_iff.1 hc).1, hc],
        rfl⟩
    have hk := ht.holder j vs hj
    by_cases hij : j = i
    · subst hij
      have hholder := (Heap.subscribe_holderAt s.heap hi j).trans (if_pos rfl)
      refine ⟨?_, ?_, fun c hc => ?_⟩
      · rw [Heap.held, hholder]
        exact hk.last
      · have hnew : s.heap.channels.size ∉ (s.heap.holderAt j).subscribers :=
          fun hmem => Nat.lt_irrefl _ ((ht.subscribed hi).within _ hmem)
        rw [hholder]
        exact (List.concat_eq_append ▸ hk.nodup.concat hnew :)
      · rw [hholder, List.mem_append, List.mem_singleton, ht.channels] at hc
        rcases hc with hc | rfl
        · obtain ⟨sub, hsub, hj⟩ := hk.owned c hc
          obtain ⟨sub', hsub', hsame⟩ := hretains c sub hsub
          exact ⟨sub', hsub', hsame.trans hj⟩
        · exact ⟨⟨j, [], []⟩, by simp [Ledger.record], rfl⟩
    · refine hk.frame ?_ hretains
      rw [Heap.subscribe_holderAt s.heap hi, if_neg hij]

/-- An act on one channel: what has to be shown is about the subscription of that channel alone. -/
theorem onChannel {c : Nat} (hc : c < s.heap.channels.size) (ch : Channel)
    {signals : List (Option Signal)} (hsignals : signals = l'.signals.map (Option.map Signal.channel))
    (hvalues : l'.values = l.values)
    (hlength : l'.subscriptions.length = l.subscriptions.length)
    (hlive : ∀ d, l'.Live d → l.Live d)
    (hothers : ∀ d, d ≠ c → l'.subscriptions[d]? = l.subscriptions[d]? ∧
      l'.signals.count (some d) = l.signals.count (some d))
    (hchannelFits : ∀ sub, ChannelFits s.heap l c sub → l.subscriptions[c]? = some sub → ∃ sub',
      l'.subscriptions[c]? = some sub' ∧ sub'.holder = sub.holder ∧
        ChannelFits (s.heap.setChannel c ch) l' c sub') :
    Tracks ⟨s.heap.setChannel c ch, signals⟩ l' where
  signals := hsignals
  holders := ht.holders.trans (congrArg List.length hvalues.symm)
  channels := by rw [Heap.setChannel_size, ht.channels, hlength]
  known d hd := by
    rw [hlength]
    exact ht.known d (hlive d hd)
  channel d sub hd := by
    by_cases hdc : d = c
    · subst hdc
      obtain ⟨old, hold⟩ : ∃ old, l.subscriptions[d]? = some old := by
        rw [ht.channels] at hc
        exact ⟨_, List.getElem?_eq_getElem hc⟩
      obtain ⟨sub', hsub', -, hf⟩ := hchannelFits old (ht.channel d old hold) hold
      rw [hd] at hsub'
      exact Option.some.inj hsub' ▸ hf
    · obtain ⟨hsub, hcount⟩ := hothers d hdc
      rw [hsub] at hd
      refine (ht.channel d sub hd).frame (Nat.le_refl _) ?_ hcount id
      rw [Heap.channelAt_setChannel s.heap hc, if_neg hdc]
  holder i vs hi := by
    rw [hvalues] at hi
    refine (ht.holder i vs hi).frame rfl fun d sub hd => ?_
    by_cases hdc : d = c
    · subst hdc
      obtain ⟨sub', hsub', hholder, -⟩ := hchannelFits sub (ht.channel d sub hd) hd
      exact ⟨sub', hsub', hholder⟩
    · exact ⟨sub, (hothers d hdc).1.trans hd, rfl⟩

theorem take {k c : Nat} {vs rest : List Value} (hk : l.subscription? k = some c)
    (hc : c < s.heap.channels.size) (hpending : (s.heap.channelAt c).pending = vs ++ rest) :
    Tracks { s with heap := s.heap.setChannel c { s.heap.channelAt c with pending := rest } }
      (l.take k vs) := by
  have htake : l.take k vs = { l with subscriptions := l.subscriptions.modify c fun sub =>
      { sub with taken := sub.taken ++ vs } } := by
    simp only [Ledger.take, hk]
  rw [htake]
  refine ht.onChannel hc _ ht.signals rfl (by simp) (fun _ => id) (fun d hd => ⟨?_, rfl⟩)
    fun sub hf hsub => ⟨{ sub with taken := sub.taken ++ vs }, by simp [hsub], rfl, ?_⟩
  · simp [Ne.symm hd]
  · have hchannel := Heap.channelAt_setChannel s.heap hc c { s.heap.channelAt c with pending := rest }
    rw [if_pos rfl] at hchannel
    refine ⟨hf.placed, by rw [hchannel]; exact hf.receivers, hf.subscribed, fun hlive => ?_⟩
    rw [hchannel, ← hf.delivered hlive, hpending, List.append_assoc]

theorem clone {k c : Nat} (hk : l.subscription? k = some c) (hc : c < s.heap.channels.size)
    (answer : List Value) :
    Tracks ⟨(Signal.channel c).clone s.heap, s.signals ++ [some (.channel c)]⟩
      (l.record (.clone k) answer) := by
  have hlive := Ledger.live_of_subscription hk
  have hsignals : (l.record (.clone k) answer).signals = l.signals ++ [some c] := by
    rw [Ledger.record, hk]
  refine ht.onChannel hc _ (by simp [hsignals, ht.signals]) rfl rfl (fun d hd => ?_)
    (fun d hd => ⟨rfl, ?_⟩) fun sub hf hsub => ⟨sub, hsub, rfl, ?_⟩
  · rw [Ledger.Live, hsignals, List.mem_append, List.mem_singleton] at hd
    rcases hd with hd | hd
    · exact hd
    · exact Option.some.inj hd ▸ hlive
  · simp [hsignals, Ne.symm hd]
  · have hchannel := (Heap.channelAt_setChannel s.heap hc c
      { s.heap.channelAt c with receivers := (s.heap.channelAt c).receivers + 1 }).trans (if_pos rfl)
    refine ⟨hf.placed, ?_, fun _ => hf.subscribed hlive, fun _ => ?_⟩
    · rw [hchannel, hsignals, List.count_append, List.count_singleton_self, hf.receivers]
    · rw [hchannel]
      exact hf.delivered hlive

theorem drop {k c : Nat} (hk : l.subscription? k = some c) (hc : c < s.heap.channels.size)
    (answer : List Value) :
    Tracks ⟨(Signal.channel c).drop s.heap, s.signals.set k none⟩ (l.record (.drop k) answer) := by
  have hget : l.signals[k]? = some (some c) := Option.join_eq_some_iff.1 hk
  obtain ⟨hlt, hval⟩ := List.getElem?_eq_some_iff.1 hget
  have hlive : ∀ d, (l.record (.drop k) answer).Live d → l.Live d := by
    intro d hd
    rcases List.mem_or_eq_of_mem_set hd with hd | hd
    · exact hd
    · cases hd
  have hcount : ∀ d, (l.record (.drop k) answer).signals.count (some d) =
      l.signals.count (some d) - if d = c then 1 else 0 := by
    intro d
    rw [Ledger.record, List.count_set hlt, hval]
    by_cases hd : d = c
    · simp [hd]
    · simp [hd, Ne.symm hd]
  refine ht.onChannel hc _ ?_ rfl rfl hlive (fun d hd => ⟨rfl, ?_⟩) fun sub hf hsub =>
    ⟨sub, hsub, rfl, ?_⟩
  · simp [Ledger.record, ht.signals, List.map_set]
  · rw [hcount, if_neg hd, Nat.sub_zero]
  · have hchannel := (Heap.channelAt_setChannel s.heap hc c
      { s.heap.channelAt c with receivers := (s.heap.channelAt c).receivers - 1 }).trans (if_pos rfl)
    refine ⟨hf.placed, ?_, fun h => hf.subscribed (hlive c h), fun h => ?_⟩
    · rw [hchannel, hcount, if_pos rfl, hf.receivers]
    · rw [hchannel]
      exact hf.delivered (hlive c h)

/-- Whatever is done, heap and ledger belong together afterwards. -/
theorem perform {act : Act} {answer : List Value} {s' : Session}
    (h : s.perform act = some (answer, s')) : Tracks s' (l.record act answer) := by
  cases act with
  | create v =>
    cases h
    exact ht.create v []
  | set i v =>
    obtain ⟨hi, h⟩ := Option.ite_none_right_eq_some.1 h
    cases h
    exact ht.set hi v _
  | observe i =>
    obtain ⟨hi, h⟩ := Option.ite_none_right_eq_some.1 h
    cases h
    exact ht.observe hi _
  | tryNext k =>
    obtain ⟨signal, hk, h⟩ := Option.bind_eq_some_iff.1 h
    obtain ⟨c, sub, rfl, hk, -, hc, -⟩ := ht.channel_of_signal hk
    cases hp : (s.heap.channelAt c).pending with
    | nil =>
      simp only [Signal.tryNext, hp] at h
      cases h
      have hsame : s.heap.setChannel c { s.heap.channelAt c with pending := [] } = s.heap := by
        rw [← hp]
        exact congrArg (fun channels => { s.heap with channels }) (Heap.setIfInBounds_getD _ _ _)
      have htaken : Tracks _ (l.take k []) := ht.take hk hc hp
      rw [hsame] at htaken
      exact htaken
    | cons v rest =>
      simp only [Signal.tryNext, hp] at h
      cases h
      exact ht.take hk hc hp
  | drain k =>
    obtain ⟨signal, hk, h⟩ := Option.bind_eq_some_iff.1 h
    obtain ⟨c, sub, rfl, hk, -, hc, -⟩ := ht.channel_of_signal hk
    cases h
    exact ht.take hk hc (List.append_nil _).symm
  | clone k =>
    obtain ⟨signal, hk, h⟩ := Option.bind_eq_some_iff.1 h
    obtain ⟨c, sub, rfl, hk, -, hc, -⟩ := ht.channel_of_signal hk
    cases h
    exact ht.clone hk hc _
  | drop k =>
    obtain ⟨signal, hk, h⟩ := Option.bind_eq_some_iff.1 h
    obtain ⟨c, sub, rfl, hk, -, hc, -⟩ := ht.channel_of_signal hk
    cases h
    exact ht.drop hk hc _
  | elsewhere objects sequences maps =>
    cases h
    exact ⟨ht.signals, ht.holders, ht.channels, ht.known,
      fun c sub hc => (ht.channel c sub hc).frame (Nat.le_refl _) rfl rfl id,
      fun i vs hi => (ht.holder i vs hi).frame rfl (.of_eq rfl)⟩

end Tracks

/-! ## What a run keeps -/

namespace Recorded

theorem step_tracks {r : Recorded} (h : Tracks r.session r.ledger) (act : Act) :
    Tracks (r.step act).session (r.step act).ledger := by
  unfold step
  split
  · exact h
  · next answer session hp => exact h.perform hp

theorem foldl_tracks (acts : List Act) {r : Recorded} (h : Tracks r.session r.ledger) :
    Tracks (acts.foldl step r).session (acts.foldl step r).ledger := by
  induction acts generalizing r with
  | nil => exact h
  | cons act acts ih => exact ih (step_tracks h act)

theorem run_tracks (acts : List Act) : Tracks (run acts).session (run acts).ledger :=
  foldl_tracks acts ⟨rfl, rfl, rfl, by simp [Ledger.Live, Ledger.empty], by simp [Ledger.empty],
    by simp [Ledger.empty]⟩

end Recorded

namespace Tracks

variable {r : Recorded} (ht : Tracks r.session r.ledger)

include ht

theorem delivers : r.Delivers := by
  intro k c hk
  have hsignal : r.session.signals[k]? = some (some (.channel c)) := by
    rw [ht.signals, List.getElem?_map, hk]
    rfl
  have hlive : r.ledger.Live c := List.mem_of_getElem? hk
  have hsub := List.getElem?_eq_getElem (ht.known c hlive)
  exact ⟨.channel c, _, hsignal, hsub, (ht.channel c _ hsub).delivered hlive⟩

theorem holdsLast : r.HoldsLast :=
  ⟨ht.holders, fun i vs hi => (ht.holder i vs hi).last⟩

/-- After a write the subscribers are the live subscriptions. -/
theorem reportsWrite {i : Nat} (hi : i < r.ledger.values.length) (v : Value) :
    r.ReportsWrite i v := by
  have hi : i < r.session.heap.holders.size := by
    rw [ht.holders]
    exact hi
  obtain ⟨vs, hvs⟩ := ht.value_of_holder hi
  refine ⟨vs, _, _, hvs, (ht.holder i vs hvs).last, if_pos hi, ?_⟩
  have hmem : ∀ c, c ∈ r.session.heap.liveSubscribers i ↔ c ∈ r.ledger.liveOf i := fun c =>
    (ht.mem_liveSubscribers hi).trans r.ledger.mem_liveOf.symm
  have hperm := (List.perm_ext_iff_of_nodup
    ((ht.subscribed hi).nodup.filter _) (List.nodup_range.filter _)).2 hmem
  unfold Heap.subscriberCount
  rw [(ht.subscribed hi).setHeld_holderAt v, if_pos rfl, Ledger.liveOf_set]
  exact hperm.length_eq

end Tracks

/-- For every run: the values taken through the signals of a subscription and those still waiting are
the values written since, in order, each of them once; a holder holds the value written last; a write
answers with the value before it and leaves just the subscriptions that still have a signal. -/
theorem written_values_delivered (acts : List Act) :
    (Recorded.run acts).Delivers ∧ (Recorded.run acts).HoldsLast ∧
      ∀ i v, i < (Recorded.run acts).ledger.values.length → (Recorded.run acts).ReportsWrite i v :=
  have ht := Recorded.run_tracks acts
  ⟨ht.delivers, ht.holdsLast, fun _ v hi => ht.reportsWrite hi v⟩

/-- A signal and its clone take turns, a later signal is dropped before the last write. -/
def turns : List Act :=
  [.create (.int32 1), .observe 0, .clone 0, .set 0 (.int32 2), .observe 0, .set 0 (.int32 3),
    .tryNext 1, .drop 2, .drop 0, .set 0 (.int32 4), .tryNext 1]

theorem written_values_delivered_turns :
    (Recorded.run turns).Delivers ∧ (Recorded.run turns).HoldsLast ∧
      0 < (Recorded.run turns).ledger.values.length ∧
      (Recorded.run turns).ReportsWrite 0 (.int32 5) :=
  have hrun := written_values_delivered turns
  have hcreated : 0 < (Recorded.run turns).ledger.values.length := by decide +kernel
  ⟨hrun.1, hrun.2.1, hcreated, hrun.2.2 0 (.int32 5) hcreated⟩

/-- The clone took two values, the third waits for it; nothing was taken from the dropped signal. -/
example : (Recorded.run turns).ledger.subscriptions.map (fun sub => (sub.written, sub.taken)) =
      [([.int32 2, .int32 3, .int32 4], [.int32 2, .int32 3]),
        ([.int32 3, .int32 4], [])] ∧
    (Recorded.run turns).ledger.liveOf 0 = [0] ∧
    (Recorded.run turns).session.heap.subscriberCount 0 = 1 := by
  decide +kernel

end Introspect
