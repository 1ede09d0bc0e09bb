import Mathlib.Logic.Relation
import ScriptWorker.Proofs.Channel.Running
import ScriptWorker.Proofs.Channel.Segments

/-!
# No byte is lost and none is delivered twice

`Runs` describes a run by what it does with the bytes: it hands over the bytes through the next
newline, or the rest of an input that ends, and stops where nothing can be handed over or where the
handler wants no more. A run does what one such description says, and only one fits
(`runs_run`, `Runs.unique`). So what is handed over during a script of calls on a channel is
determined (`Delivers`), and `conservation` says that it makes up the input, together with what is
unread and with a tail that cannot be read.
-/

set_option autoImplicit false

namespace ScriptWorker.Channel

universe u

variable {η : Type u} {ε : Type}

/-! ## One run -/

/-- A segment in front of other bytes extends through the next newline, or to the end of an input
that ends well. -/
def Complete (readFault : Option String) (seg rest : List UInt8) : Prop :=
  Closed seg ∨ CutOff seg ∧ rest = [] ∧ readFault = none

/-- What a channel hands over next, and the bytes behind it. -/
def Next (c : Channel η) (seg rest : List UInt8) : Prop :=
  c.unread = seg ++ rest ∧ Complete c.readFault seg rest

/-- A line is handed to a handler. -/
structure Handover (η : Type u) where
  handler : η
  segment : List UInt8
  /-- The bytes that are unread then. -/
  unread : List UInt8

/-- What a run hands over, how it ends, and the channel after it. -/
inductive Runs (h : Handler η ε) :
    Channel η → List (Handover η) → Except ε Exit → Channel η → Prop
  | idle {c} (hc : c.handler = none) : Runs h c [] (.ok .detached) c
  | ended {c w} (hc : c.handler = some w) (hu : c.unread = []) (hr : c.readFault = none) :
    Runs h c [] (.ok .endOfInput) { c with outlets := c.outlets.note closedEvent }
  | broken {c w cause} (hc : c.handler = some w) (hu : newline ∉ c.unread)
    (hr : c.readFault = some cause) :
    Runs h c [] (.error (h.ofChannel (.read cause))) { c with unread := [] }
  | failed {c w seg rest e w' o} (hc : c.handler = some w) (hn : Next c seg rest)
    (hl : h.onLine w (lineOf seg) c.outlets = (.error e, w', o)) :
    Runs h c [⟨w, seg, rest⟩] (.error e) ⟨rest, c.readFault, o, some w'⟩
  | left {c w seg rest w' o} (hc : c.handler = some w) (hn : Next c seg rest)
    (hl : h.onLine w (lineOf seg) c.outlets = (.ok .detach, w', o)) :
    Runs h c [⟨w, seg, rest⟩] (.ok .detached) ⟨rest, c.readFault, o.note detachedEvent, none⟩
  | went {c w seg rest w' o ds r c'} (hc : c.handler = some w) (hn : Next c seg rest)
    (hl : h.onLine w (lineOf seg) c.outlets = (.ok .goOn, w', o))
    (hs : Runs h ⟨rest, c.readFault, o, some w'⟩ ds r c') :
    Runs h c (⟨w, seg, rest⟩ :: ds) r c'

theorem terminated_closed {seg : List UInt8} (h : Closed seg) : terminated seg = true := by
  obtain ⟨body, -, rfl⟩ := h
  simp [terminated]

theorem terminated_cutOff {seg : List UInt8} (h : CutOff seg) : terminated seg = false := by
  rw [terminated, beq_eq_false_iff_ne]
  intro hl
  exact h.2 (List.mem_of_getLast? hl)

/-- Behind a segment that is cut off, there is none. -/
theorem Split.nil_of_cutOff {seg : List UInt8} {segs : List (List UInt8)}
    (hs : Split (seg :: segs)) (h : CutOff seg) : segs = [] := by
  cases segs with
  | nil => rfl
  | cons next segs =>
    obtain ⟨body, -, rfl⟩ := (List.pairwise_cons.1 hs.inner).1 next List.mem_cons_self
    exact absurd (List.mem_append_right body List.mem_cons_self) h.2

/-- Delivering the segments of the unread bytes is a run. -/
theorem runs_runFrom (h : Handler η ε) (readFault : Option String) (handler : Option η)
    (o : Outlets) {segs : List (List UInt8)} (hs : Split segs) :
    let r := runFrom h readFault handler o segs
    ∃ ds, Runs h ⟨segs.flatten, readFault, o, handler⟩ ds r.1 r.2 := by
  induction segs generalizing handler o with
  | nil =>
    cases handler with
    | none => exact ⟨[], .idle rfl⟩
    | some w =>
      cases readFault with
      | none => exact ⟨[], .ended rfl rfl rfl⟩
      | some cause => exact ⟨[], .broken rfl List.not_mem_nil rfl⟩
  | cons seg segs ih =>
    cases handler with
    | none => exact ⟨[], .idle rfl⟩
    | some w =>
      have hs' : Split segs := hs.sublist (List.sublist_cons_self _ _)
      rcases whole_or_cut readFault seg with hw | ⟨cause, rfl, ht⟩
      · have hn : Next ⟨(seg :: segs).flatten, readFault, o, some w⟩ seg segs.flatten := by
          refine ⟨rfl, ?_⟩
          rcases hs.each seg List.mem_cons_self with hc | hc
          · exact .inl hc
          · refine .inr ⟨hc, by rw [hs.nil_of_cutOff hc]; rfl, hw.resolve_right ?_⟩
            rw [terminated_cutOff hc]
            exact Bool.false_ne_true
        rw [runFrom_cons h hw]
        rcases hl : h.onLine w (lineOf seg) o with ⟨e | _ | _, w', o'⟩
        · exact ⟨_, .failed rfl hn hl⟩
        · obtain ⟨ds, hd⟩ := ih (some w') o' hs'
          exact ⟨_, .went rfl hn hl hd⟩
        · simp only [runFrom_none]
          exact ⟨_, .left rfl hn hl⟩
      · have hc : CutOff seg := (hs.each seg List.mem_cons_self).resolve_left fun hc => by
          rw [terminated_closed hc] at ht
          cases ht
        rw [runFrom_cut h ht, hs.nil_of_cutOff hc]
        exact ⟨[], .broken rfl (by simpa using hc.2) rfl⟩

/-- **Each run is described.** -/
theorem runs_run (h : Handler η ε) (c : Channel η) :
    ∃ ds, Runs h c ds (c.run h).1 (c.run h).2 := by
  obtain ⟨ds, hd⟩ := runs_runFrom h c.readFault c.handler c.outlets (split_segments c.unread)
  rw [flatten_segments] at hd
  exact ⟨ds, hd⟩

/-! ## Only one description fits -/

theorem Next.unique {c : Channel η} {seg rest seg' rest' : List UInt8} (h : Next c seg rest)
    (h' : Next c seg' rest') : seg = seg' ∧ rest = rest' := by
  have head : ∀ {seg rest}, Next c seg rest → segments c.unread = seg :: segments rest := by
    rintro seg rest ⟨hu, hs | ⟨hs, rfl, -⟩⟩
    · rw [hu, segments_closed_append hs]
    · rw [hu, List.append_nil, segments_cutOff hs]
      rfl
  have hs := (head h).symm.trans (head h')
  obtain ⟨rfl, -⟩ := List.cons.inj hs
  exact ⟨rfl, List.append_cancel_left (h.1.symm.trans h'.1)⟩

theorem Next.ne_nil {c : Channel η} {seg rest : List UInt8} (h : Next c seg rest) :
    c.unread ≠ [] := by
  intro hu
  rcases h with ⟨hs, ⟨body, -, rfl⟩ | ⟨hc, -, -⟩⟩
  · simp [hu] at hs
  · rw [hu, List.nil_eq_append_iff] at hs
    exact hc.1 hs.1

theorem Next.not_broken {c : Channel η} {seg rest : List UInt8} {cause : String}
    (h : Next c seg rest) (hu : newline ∉ c.unread) : c.readFault ≠ some cause := by
  rcases h with ⟨hs, ⟨body, -, rfl⟩ | ⟨-, -, hr⟩⟩
  · exact absurd (hs ▸ by simp) hu
  · rw [hr]
    exact Option.some_ne_none cause ∘ Eq.symm

/-- **A run does one thing only.** -/
theorem Runs.unique {h : Handler η ε} {c c' c'' : Channel η} {ds ds' : List (Handover η)}
    {r r' : Except ε Exit} (hr : Runs h c ds r c') (hr' : Runs h c ds' r' c'') :
    ds = ds' ∧ r = r' ∧ c' = c'' := by
  induction hr generalizing ds' r' c'' with
  | idle hc => cases hr' <;> grind
  | ended hc hu hr => cases hr' <;> grind [Next.ne_nil]
  | broken hc hu hr => cases hr' <;> grind [Next.not_broken]
  | failed hc hn hl => cases hr' <;> grind [Next.ne_nil, Next.not_broken, Next.unique]
  | left hc hn hl => cases hr' <;> grind [Next.ne_nil, Next.not_broken, Next.unique]
  | went hc hn hl hs ih => cases hr' <;> grind [Next.ne_nil, Next.not_broken, Next.unique]

/-! ## What a run leaves -/

/-- The bytes that are handed over. -/
def delivered (ds : List (Handover η)) : List UInt8 := ds.flatMap (·.segment)

@[simp] theorem delivered_nil : delivered ([] : List (Handover η)) = [] := rfl

@[simp] theorem delivered_cons (d : Handover η) (ds : List (Handover η)) :
    delivered (d :: ds) = d.segment ++ delivered ds := rfl

@[simp] theorem delivered_append (ds ds' : List (Handover η)) :
    delivered (ds ++ ds') = delivered ds ++ delivered ds' := List.flatMap_append

/-- The bytes are a tail on which reading fails, with that outcome. -/
def Lost (h : Handler η ε) (readFault : Option String) (lost : List UInt8)
    (r : Except ε Exit) : Prop :=
  CutOff lost ∧ ∃ cause, readFault = some cause ∧ r = .error (h.ofChannel (.read cause))

/-- **A run keeps the bytes together**: those that it hands over and those that it leaves unread
make up what was unread, but for a tail on which reading fails. -/
theorem Runs.conserves {h : Handler η ε} {c c' : Channel η} {ds : List (Handover η)}
    {r : Except ε Exit} (hr : Runs h c ds r c') :
    c'.readFault = c.readFault ∧ ∃ lost, c.unread = delivered ds ++ lost ++ c'.unread ∧
      (lost = [] ∨ Lost h c.readFault lost r ∧ c'.unread = []) := by
  induction hr with
  | idle hc => exact ⟨rfl, [], rfl, .inl rfl⟩
  | ended hc hu hr => exact ⟨rfl, [], rfl, .inl rfl⟩
  | @broken c w cause hc hu hr =>
    refine ⟨rfl, c.unread, (List.append_nil _).symm, ?_⟩
    by_cases he : c.unread = []
    · exact .inl he
    · exact .inr ⟨⟨⟨he, hu⟩, cause, hr, rfl⟩, rfl⟩
  | failed hc hn hl => exact ⟨rfl, [], by simp [hn.1], .inl rfl⟩
  | left hc hn hl => exact ⟨rfl, [], by simp [hn.1], .inl rfl⟩
  | went hc hn hl hs ih =>
    obtain ⟨hf, lost, hu, hlost⟩ := ih
    refine ⟨hf, lost, ?_, hlost⟩
    rw [hn.1, delivered_cons, List.append_assoc, List.append_assoc, ← List.append_assoc _ lost]
    exact congrArg _ hu

/-- What is handed over continues what has been handed over before. -/
theorem Runs.each {h : Handler η ε} {c c' : Channel η} {ds : List (Handover η)}
    {r : Except ε Exit} (hr : Runs h c ds r c') {before after : List (Handover η)}
    {x : Handover η} (hx : ds = before ++ x :: after) :
    c.unread = delivered before ++ (x.segment ++ x.unread) ∧
      Complete c.readFault x.segment x.unread := by
  induction hr generalizing before with
  | idle hc => simp at hx
  | ended hc hu hr => simp at hx
  | broken hc hu hr => simp at hx
  | failed hc hn hl | left hc hn hl =>
    cases before with
    | nil =>
      cases hx
      exact hn
    | cons d before => simp at hx
  | went hc hn hl hs ih =>
    cases before with
    | nil =>
      cases hx
      exact hn
    | cons d before =>
      rw [List.cons_append, List.cons.injEq] at hx
      obtain ⟨rfl, hx⟩ := hx
      obtain ⟨hu, hc⟩ := ih hx
      refine ⟨?_, hc⟩
      rw [hn.1, delivered_cons, List.append_assoc]
      exact congrArg _ hu

/-- The handler may become another one by handling lines. -/
def Handler.Becomes (h : Handler η ε) : η → η → Prop :=
  Relation.ReflTransGen fun w w' => ∃ line o, (h.onLine w line o).2.1 = w'

theorem Handler.Becomes.step {h : Handler η ε} {w w' : η} {line : String} {o o' : Outlets}
    {r : Except ε Delivery} (hl : h.onLine w line o = (r, w', o')) : h.Becomes w w' :=
  .single ⟨line, o, by rw [hl]⟩

/-- **A run hands its lines to the handler that is subscribed.** -/
theorem Runs.handlers {h : Handler η ε} {c c' : Channel η} {ds : List (Handover η)}
    {r : Except ε Exit} (hr : Runs h c ds r c') :
    ∀ x ∈ ds, ∃ w, c.handler = some w ∧ h.Becomes w x.handler := by
  induction hr with
  | idle hw => exact fun x hx => nomatch hx
  | ended hw hu hf => exact fun x hx => nomatch hx
  | broken hw hu hf => exact fun x hx => nomatch hx
  | failed hw hn hl | left hw hn hl =>
    intro x hx
    rw [List.mem_singleton.1 hx]
    exact ⟨_, hw, .refl⟩
  | went hw hn hl hs ih =>
    intro x hx
    rcases List.mem_cons.1 hx with rfl | hx
    · exact ⟨_, hw, .refl⟩
    · obtain ⟨w, hw', hb⟩ := ih x hx
      cases hw'
      exact ⟨_, hw, (Handler.Becomes.step hl).trans hb⟩

/-- How a run with a handler leaves the channel: the handler stays subscribed unless it asks to be
detached, and where it asks or fails nothing behind its line has been read. -/
def Left (h : Handler η ε) (readFault : Option String) (w : η) (ds : List (Handover η))
    (c' : Channel η) : Except ε Exit → Prop
  | .ok .endOfInput =>
    readFault = none ∧ c'.unread = [] ∧ ∃ w', c'.handler = some w' ∧ h.Becomes w w'
  | .ok .detached => c'.handler = none ∧ ∃ x, ds.getLast? = some x ∧ c'.unread = x.unread
  | .error e =>
    (∃ w', c'.handler = some w' ∧ h.Becomes w w') ∧
      ((∃ x, ds.getLast? = some x ∧ c'.unread = x.unread) ∨
        c'.unread = [] ∧ ∃ cause, readFault = some cause ∧ e = h.ofChannel (.read cause))

theorem Runs.ends {h : Handler η ε} {c c' : Channel η} {ds : List (Handover η)}
    {r : Except ε Exit} (hr : Runs h c ds r c') {w : η} (hc : c.handler = some w) :
    Left h c.readFault w ds c' r := by
  induction hr generalizing w with
  | idle hw =>
    rw [hw] at hc
    cases hc
  | ended hw hu hf => exact ⟨hf, hu, w, hc, .refl⟩
  | broken hw hu hf => exact ⟨⟨w, hc, .refl⟩, .inr ⟨rfl, _, hf, rfl⟩⟩
  | failed hw hn hl =>
    cases hw.symm.trans hc
    exact ⟨⟨_, rfl, .step hl⟩, .inl ⟨_, rfl, rfl⟩⟩
  | left hw hn hl => exact ⟨rfl, _, rfl, rfl⟩
  | @went c w₀ seg rest w₁ o ds r c' hw hn hl hs ih =>
    cases hw.symm.trans hc
    have last : ∀ {x}, ds.getLast? = some x → (⟨w₀, seg, rest⟩ :: ds).getLast? = some x := by
      intro x hx
      rw [List.getLast?_cons, hx]
      rfl
    specialize ih rfl
    rcases r with e | _ | _
    · obtain ⟨⟨w', hw', hb⟩, hu⟩ := ih
      refine ⟨⟨w', hw', (Handler.Becomes.step hl).trans hb⟩, hu.imp_left ?_⟩
      rintro ⟨x, hx, hu⟩
      exact ⟨x, last hx, hu⟩
    · obtain ⟨hf, hu, w', hw', hb⟩ := ih
      exact ⟨hf, hu, w', hw', (Handler.Becomes.step hl).trans hb⟩
    · obtain ⟨hw', x, hx, hu⟩ := ih
      exact ⟨hw', x, last hx, hu⟩

/-! ## Scripts of calls -/

/-- A call on a channel. -/
inductive Step (η : Type u) where
  | subscribe (handler : η)
  | stop
  | emit (m : Message.Outbound)
  | run

/-- What a call gives back. -/
inductive Answer (η : Type u) (ε : Type) where
  | handler (old : Option η)
  | emitted (result : Except Error Unit)
  | exit (result : Except ε Exit)

/-- Makes a call. -/
def Step.play (h : Handler η ε) (c : Channel η) : Step η → Answer η ε × Channel η
  | subscribe w => let (old, c) := c.subscribe w; (.handler old, c)
  | stop => let (old, c) := c.stop; (.handler old, c)
  | emit m => let (result, c) := c.emit m; (.emitted result, c)
  | run => let (result, c) := c.run h; (.exit result, c)

/-- Makes calls in order. Gives each with its answer, and the channel after them. -/
def play (h : Handler η ε) (c : Channel η) :
    List (Step η) → List (Step η × Answer η ε) × Channel η
  | [] => ([], c)
  | s :: steps =>
    let (answer, c) := s.play h c
    let (rest, c) := play h c steps
    ((s, answer) :: rest, c)

/-- What is handed over during calls. -/
inductive Delivers (h : Handler η ε) : Channel η → List (Step η) → List (Handover η) → Prop
  | nil {c} : Delivers h c [] []
  | run {c c' steps ds ds' r} (hr : Runs h c ds r c') (hs : Delivers h c' steps ds') :
    Delivers h c (.run :: steps) (ds ++ ds')
  | other {c s steps ds} (hn : s ≠ .run) (hs : Delivers h (s.play h c).2 steps ds) :
    Delivers h c (s :: steps) ds

/-- The handler that is subscribed after a call. -/
def Step.slot (w : Option η) : Step η × Answer η ε → Option η
  | (.subscribe w', _) => some w'
  | (.stop, _) => none
  | (.run, .exit (.ok .detached)) => none
  | _ => w

/-- The handler that has been subscribed last, if it has not been detached since. -/
def subscribed (w : Option η) (calls : List (Step η × Answer η ε)) : Option η :=
  calls.foldl Step.slot w

section
variable {h : Handler η ε} {c c' : Channel η}

/-- Stopping gives the handler back and detaches it. -/
theorem stop_eq (c : Channel η) :
    c.stop.1 = c.handler ∧ c.stop.2.handler = none ∧ c.stop.2.unread = c.unread ∧
      c.stop.2.readFault = c.readFault := by
  unfold Channel.stop
  cases hc : c.handler with
  | none => exact ⟨rfl, hc, rfl, rfl⟩
  | some w => exact ⟨rfl, rfl, rfl, rfl⟩

/-- A run without a handler reads nothing. -/
theorem run_idle (h : Handler η ε) (hc : c.handler = none) : c.run h = (.ok .detached, c) := by
  obtain ⟨ds, hr⟩ := runs_run h c
  obtain ⟨-, h1, h2⟩ := hr.unique (.idle hc)
  exact Prod.ext h1 h2

/-- Calls other than runs read nothing. -/
theorem Step.play_other {s : Step η} (hs : s ≠ .run) :
    (s.play h c).2.unread = c.unread ∧ (s.play h c).2.readFault = c.readFault := by
  cases s with
  | subscribe w => exact ⟨rfl, rfl⟩
  | stop => exact (stop_eq c).2.2
  | emit m => exact ⟨rfl, rfl⟩
  | run => exact absurd rfl hs

theorem delivers_play (h : Handler η ε) (c : Channel η) (steps : List (Step η)) :
    ∃ ds, Delivers h c steps ds := by
  induction steps generalizing c with
  | nil => exact ⟨[], .nil⟩
  | cons s steps ih =>
    by_cases hs : s = .run
    · subst hs
      obtain ⟨ds, hd⟩ := runs_run h c
      obtain ⟨ds', hd'⟩ := ih (c.run h).2
      exact ⟨ds ++ ds', .run hd hd'⟩
    · obtain ⟨ds, hd⟩ := ih (s.play h c).2
      exact ⟨ds, .other hs hd⟩

/-- What is handed over during calls is determined. -/
theorem Delivers.unique {steps : List (Step η)} {ds ds' : List (Handover η)}
    (hd : Delivers h c steps ds) (hd' : Delivers h c steps ds') : ds' = ds := by
  induction hd generalizing ds' with
  | nil =>
    cases hd'
    rfl
  | run hr hs ih =>
    cases hd' with
    | run hr' hs' =>
      obtain ⟨rfl, -, rfl⟩ := hr.unique hr'
      rw [ih hs']
    | other hn => exact absurd rfl hn
  | other hn hs ih =>
    cases hd' with
    | run => exact absurd rfl hn
    | other hn' hs' => exact ih hs'

/-- What is handed over during one run more. -/
theorem Delivers.concat {steps : List (Step η)} {ds ds' : List (Handover η)} {r : Except ε Exit}
    (hd : Delivers h c steps ds) (hr : Runs h (play h c steps).2 ds' r c') :
    Delivers h c (steps ++ [.run]) (ds ++ ds') := by
  induction hd with
  | nil =>
    have := Delivers.run hr .nil
    rwa [List.append_nil] at this
  | @run c c₁ steps ds ds₁ r hr₁ hs ih =>
    obtain ⟨ds₀, hr₀⟩ := runs_run h c
    obtain ⟨-, -, rfl⟩ := hr₁.unique hr₀
    rw [List.append_assoc]
    exact .run hr₁ (ih hr)
  | other hn hs ih => exact .other hn (ih hr)

/-- **Calls keep the bytes together.** -/
theorem Delivers.conserves {steps : List (Step η)} {ds : List (Handover η)}
    (hd : Delivers h c steps ds) :
    let p := play h c steps
    p.2.readFault = c.readFault ∧ ∃ lost, c.unread = delivered ds ++ lost ++ p.2.unread ∧
      (lost = [] ∨ p.2.unread = [] ∧ ∃ r, Lost h c.readFault lost r ∧ (.run, .exit r) ∈ p.1) := by
  induction hd with
  | nil => exact ⟨rfl, [], rfl, .inl rfl⟩
  | @run c c₁ steps ds ds₁ r hr hs ih =>
    obtain ⟨ds₀, hr₀⟩ := runs_run h c
    obtain ⟨-, rfl, rfl⟩ := hr.unique hr₀
    obtain ⟨hf, lost, hu, hlost⟩ := hr.conserves
    obtain ⟨hf₁, lost₁, hu₁, hlost₁⟩ := ih
    refine ⟨hf₁.trans hf, ?_⟩
    rcases hlost with rfl | ⟨hl, hn⟩
    · refine ⟨lost₁, ?_, ?_⟩
      · rw [hu, hu₁, List.append_nil, delivered_append, List.append_assoc, List.append_assoc,
          List.append_assoc]
        rfl
      rcases hlost₁ with h₁ | ⟨hn₁, r, hl₁, hm⟩
      · exact .inl h₁
      · exact .inr ⟨hn₁, r, hf ▸ hl₁, List.mem_cons_of_mem _ hm⟩
    · -- nothing is left behind a tail that is lost
      rw [hn] at hu₁
      obtain ⟨hu₁, hp⟩ := List.append_eq_nil_iff.1 hu₁.symm
      obtain ⟨hd, -⟩ := List.append_eq_nil_iff.1 hu₁
      refine ⟨lost, ?_, .inr ⟨hp, _, hl, List.mem_cons_self⟩⟩
      rw [hu, hn, delivered_append, hd, List.append_nil (delivered ds)]
      exact congrArg (delivered ds ++ lost ++ ·) hp.symm
  | other hn hs ih =>
    obtain ⟨hu, hf⟩ := Step.play_other hn
    obtain ⟨hf', lost, hu', hlost⟩ := ih
    refine ⟨hf'.trans hf, lost, hu.symm.trans hu', hlost.imp_right ?_⟩
    rintro ⟨hn, r, hr, hm⟩
    exact ⟨hn, r, hf ▸ hr, List.mem_cons_of_mem _ hm⟩

theorem Complete.ne_nil {readFault : Option String} {seg rest : List UInt8}
    (h : Complete readFault seg rest) : seg ≠ [] := by
  rcases h with ⟨body, -, rfl⟩ | ⟨h, -⟩
  · exact List.append_ne_nil_of_right_ne_nil _ (List.cons_ne_nil _ _)
  · exact h.1

/-- What is handed over continues what has been handed over before, over all calls. -/
theorem Delivers.each {steps : List (Step η)} {ds : List (Handover η)} (hd : Delivers h c steps ds)
    {before after : List (Handover η)} {x : Handover η} (hx : ds = before ++ x :: after) :
    c.unread = delivered before ++ (x.segment ++ x.unread) ∧
      Complete c.readFault x.segment x.unread := by
  induction hd generalizing before after with
  | nil => simp at hx
  | @run c c₁ steps ds₁ ds₂ r hr hs ih =>
    obtain ⟨hf, lost, hu, hlost⟩ := hr.conserves
    rcases append_eq_append_cons hx with ⟨rest, h₁, -⟩ | ⟨before, rfl, h₂⟩
    · exact hr.each h₁
    · -- something is handed over behind the run, so nothing has been lost
      obtain ⟨hu₂, hc⟩ := ih h₂
      have hl : lost = [] := by
        refine hlost.resolve_right ?_
        rintro ⟨-, hn⟩
        rw [hn] at hu₂
        have := (List.append_eq_nil_iff.1 hu₂.symm).2
        exact hc.ne_nil (List.append_eq_nil_iff.1 this).1
      refine ⟨?_, hf ▸ hc⟩
      rw [hu, hl, hu₂, List.append_nil, delivered_append, List.append_assoc]
  | other hn hs ih =>
    obtain ⟨hu, hf⟩ := Step.play_other hn
    rw [← hu, ← hf]
    exact ih hx

/-- The handler that is subscribed is the one that has been subscribed last. -/
theorem Step.play_handler (s : Step η) {w : Option η} (hw : Option.Rel h.Becomes w c.handler) :
    Option.Rel h.Becomes (Step.slot w (s, (s.play h c).1)) (s.play h c).2.handler := by
  cases s with
  | subscribe w' => exact .some .refl
  | stop =>
    rw [show (stop.play h c).2.handler = none from (stop_eq c).2.1]
    exact .none
  | emit m => exact hw
  | run =>
    obtain ⟨ds, hr⟩ := runs_run h c
    simp only [play]
    cases hc : c.handler with
    | none =>
      rw [run_idle h hc, hc]
      exact .none
    | some w' =>
      have he := hr.ends hc
      rw [hc] at hw
      cases hw with
      | some hb =>
        generalize c.run h = p at he ⊢
        rcases p with ⟨e | _ | _, c'⟩
        · obtain ⟨⟨w'', hw', hb'⟩, -⟩ := he
          exact hw' ▸ .some (hb.trans hb')
        · obtain ⟨-, -, w'', hw', hb'⟩ := he
          exact hw' ▸ .some (hb.trans hb')
        · exact he.1 ▸ .none

theorem subscribed_play {w : Option η} (hw : Option.Rel h.Becomes w c.handler)
    (steps : List (Step η)) :
    Option.Rel h.Becomes (subscribed w (play h c steps).1) (play h c steps).2.handler := by
  induction steps generalizing w c with
  | nil => exact hw
  | cons s steps ih => exact ih (s.play_handler hw)

end

/-- **Conservation of bytes.** Whatever calls are made on a channel and whatever its handlers do,
what has been handed over so far, in order, and what is unread make up the input, but for a tail on
which a run has failed to read. Each line extends through the next newline or to the end of the
input, and goes to the handler that has been subscribed last, which stays the same but for what
handling lines makes of it. Only a run reads: nothing without a handler, nothing behind a line at
which the handler asks to be detached or fails. Subscribing and stopping give back the handler that
they replace. -/
theorem conservation (h : Handler η ε) (input : List UInt8) (readFault : Option String)
    (outlets : Outlets) (steps : List (Step η)) :
    let first : Channel η := .open_ input readFault outlets
    let calls := (play h first steps).1
    let c := (play h first steps).2
    ∃ ds lost, Delivers h first steps ds ∧ (∀ ds', Delivers h first steps ds' → ds' = ds) ∧
      input = delivered ds ++ lost ++ c.unread ∧
      (lost = [] ∨ c.unread = [] ∧ ∃ r, Lost h readFault lost r ∧ (.run, .exit r) ∈ calls) ∧
      (∀ before x after, ds = before ++ x :: after →
        input = delivered before ++ (x.segment ++ x.unread) ∧
          Complete readFault x.segment x.unread) ∧
      Option.Rel h.Becomes (subscribed none calls) c.handler ∧
      (∀ w, c.subscribe w = (c.handler, { c with handler := some w })) ∧
      (c.stop.1 = c.handler ∧ c.stop.2.handler = none ∧ c.stop.2.unread = c.unread) ∧
      (∀ m, (c.emit m).2.handler = c.handler ∧ (c.emit m).2.unread = c.unread) ∧
      (c.handler = none → c.run h = (.ok .detached, c)) ∧
      ∀ w, c.handler = some w → ∃ ds', Runs h c ds' (c.run h).1 (c.run h).2 ∧
        Delivers h first (steps ++ [.run]) (ds ++ ds') ∧ (∀ x ∈ ds', h.Becomes w x.handler) ∧
        Left h readFault w ds' (c.run h).2 (c.run h).1 := by
  intro first calls c
  obtain ⟨ds, hd⟩ := delivers_play h first steps
  obtain ⟨hf, lost, hu, hlost⟩ := hd.conserves
  obtain ⟨s1, s2, s3, -⟩ := stop_eq c
  refine ⟨ds, lost, hd, fun _ => hd.unique, hu, hlost, fun _ _ _ => hd.each,
    subscribed_play .none steps, fun _ => rfl, ⟨s1, s2, s3⟩, fun _ => ⟨rfl, rfl⟩, run_idle h,
    fun w hw => ?_⟩
  obtain ⟨ds', hr⟩ := runs_run h c
  have he := hr.ends hw
  rw [show c.readFault = readFault from hf] at he
  refine ⟨ds', hr, hd.concat hr, fun x hx => ?_, he⟩
  obtain ⟨w', hw', hb⟩ := hr.handlers x hx
  cases hw.symm.trans hw'
  exact hb

end ScriptWorker.Channel
