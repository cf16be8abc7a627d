/-
Does a pending request complete only with the response to it? `process_message` looks a message up by its id before its
type, and ids are counted per node: another node's request with the id of a pending one is taken for the response.

The invariant: an id belongs to one send at a time (`unique`), and every message under way is where it may be (`Sound`).
-/
import CxlMemSim.Dist.Exchange

namespace CxlMemSim.Dist.Exchange

open CxlMemSim.Core List Function

/-! ## Frame facts of the state updates -/

@[simp] lemma at_setCall (s : Net) (k : ℕ) (c : Call) (p : Place) (e : Envelope) :
    (s.setCall k c).At p e ↔ s.At p e := by cases p <;> rfl

@[simp] lemma at_setPending (s : Net) (a m : UInt32) (k : Option ℕ) (p : Place) (e : Envelope) :
    (s.setPending a m k).At p e ↔ s.At p e := by cases p <;> rfl

@[simp] lemma at_note (s : Net) (ev : Event) (p : Place) (e : Envelope) : (s.note ev).At p e ↔ s.At p e := by
  cases p <;> rfl

@[simp] lemma at_drawn (s : Net) (a : UInt32) (p : Place) (e : Envelope) : (s.drawn a).At p e ↔ s.At p e := by
  cases p <;> rfl

lemma calls_setCall_self (s : Net) (k : ℕ) (c : Call) : (s.setCall k c).calls k = some c := update_self ..

variable {k : ℕ} {s s' : Net} {src dst : UInt32} {e : Envelope} {p : Place} {f : Envelope} {t : Net} {c c' : Call}
  {a : UInt32} {type : MsgType} {now : UInt64} {payload : Payload} {dsts : List UInt32} {m : UInt32}

lemma calls_setCall_of_ne (s : Net) (c : Call) {k' : ℕ} (h : k' ≠ k) : (s.setCall k c).calls k' = s.calls k' :=
  update_of_ne h ..

lemma pending_setPending (s : Net) (a m : UInt32) (x : Option ℕ) (a' m' : UInt32) :
    (s.setPending a m x).pending a' m' = if a' = a ∧ m' = m then x else s.pending a' m' := by
  unfold Net.setPending
  by_cases ha : a' = a
  · subst ha
    by_cases hm : m' = m <;> simp [hm]
  · simp [ha]

lemma push_some (h : s.push src dst e = some s') : s' = { s with
      queues := update s.queues src (update (s.queues src) dst (s.queues src dst ++ [e])) } := by
  unfold Net.push at h
  split_ifs at h
  exact (Option.some.inj h).symm

lemma at_push (h : s.push src dst e = some s') (hp : s'.At p f) : s.At p f ∨ (p = .queue src dst ∧ f = e) := by
  rw [push_some h] at hp
  cases p with
  | queue src' dst' =>
    by_cases hsrc : src' = src
    · subst hsrc
      by_cases hdst : dst' = dst
      · subst hdst
        simpa [Net.At] using hp
      · exact .inl (by simpa [Net.At, update_of_ne hdst] using hp)
    · exact .inl (by simpa [Net.At, update_of_ne hsrc] using hp)
  | outbox a | taken a | handling a => exact .inl hp

structure SameCalls (s t : Net) : Prop where
  calls : t.calls = s.calls
  pending : t.pending = s.pending
  sends : t.sends = s.sends
  log : ∀ ev ∈ s.log, ev ∈ t.log

lemma sameCalls_push (h : s.push src dst e = some s') : SameCalls s s' := by
  rw [push_some h]
  exact ⟨rfl, rfl, rfl, fun _ h => h⟩

lemma SameCalls.trans {u : Net} (h : SameCalls s t) (h' : SameCalls t u) : SameCalls s u :=
  ⟨h'.calls.trans h.calls, h'.pending.trans h.pending, h'.sends.trans h.sends, fun ev hev => h'.log ev (h.log ev hev)⟩

lemma sameCalls_note (s : Net) (ev : Event) : SameCalls s (s.note ev) := ⟨rfl, rfl, rfl, fun _ h => mem_append_left _ h⟩

lemma sameCalls_pushOrDrop (s : Net) (src dst : UInt32) (e : Envelope) : SameCalls s (s.pushOrDrop src dst e) := by
  unfold Net.pushOrDrop
  cases h : s.push src dst e with
  | none => exact ⟨rfl, rfl, rfl, fun _ h => h⟩
  | some s' => exact sameCalls_push h

lemma at_pushOrDrop (hp : (s.pushOrDrop src dst e).At p f) : s.At p f ∨ (p = .queue src dst ∧ f = e) := by
  unfold Net.pushOrDrop at hp
  cases h : s.push src dst e with
  | none => rw [h] at hp; exact .inl hp
  | some s' => rw [h] at hp; exact at_push h hp

/-! ## The invariant -/

def Answer (s : Net) (k : ℕ) (c : Call) (e : Envelope) : Prop := Event.replied c.dst ⟨c.request, .sent k⟩ e ∈ s.log

structure Sound (s : Net) (p : Place) (e : Envelope) : Prop where
  request : ∀ k, e.origin = .sent k → k < s.sends ∧ ∀ c, s.calls k = some c → e.msg = c.request ∧
    (p = .queue c.node c.dst ∨ c.node ≠ c.dst ∧ (p = .taken c.dst ∨ p = .handling c.dst))
  reply : ∀ b o, e.origin = .reply b o → hasHandler e.msg.header.msgType = false ∧
    ∃ k, o = .sent k ∧ k < s.sends ∧ ∀ c, s.calls k = some c → b = c.dst ∧ Answer s k c e
  handled : ∀ a, p = .handling a → hasHandler e.msg.header.msgType = true

structure Inv (s : Net) : Prop where
  known : ∀ k c, s.calls k = some c → k < s.sends
  listed : ∀ a m k, s.pending a m = some k → ∃ c, s.calls k = some c ∧ c.node = a ∧ c.id = m ∧ c.Open
  sound : ∀ p e, s.At p e → Sound s p e
  unique : ∀ k k' m, s.Uses k m → s.Uses k' m → k = k'
  answered : ∀ k c e, s.calls k = some c → c.response = some e → Answer s k c e
  settled : ∀ k c, s.calls k = some c → c.completed = true ∨ c.phase = .done ∨ c.phase = .returned true →
    ∃ e, c.response = some e

lemma inv_init : Inv Net.init where
  known k c h := by cases h
  listed a m k h := by cases h
  sound p e h := by cases p <;> simp [Net.At, Net.init] at h
  unique k k' m h := by
    rcases h with ⟨c, hc, -⟩ | ⟨p, e, hp, -⟩
    · cases hc
    · cases p <;> simp [Net.At, Net.init] at hp
  answered k c e h := by cases h
  settled k c h := by cases h

structure Later (c c' : Call) : Prop where
  node : c'.node = c.node
  dst : c'.dst = c.dst
  request : c'.request = c.request
  stillOpen : c'.Open → c.Open

lemma Later.refl (c : Call) : Later c c := ⟨rfl, rfl, rfl, id⟩

structure Advanced (s s' : Net) : Prop where
  sends : s'.sends = s.sends
  log : ∀ ev ∈ s.log, ev ∈ s'.log
  calls : ∀ k c', s'.calls k = some c' → ∃ c, s.calls k = some c ∧ Later c c'

lemma SameCalls.advanced (h : SameCalls s s') : Advanced s s' :=
  ⟨h.sends, h.log, fun k c' hc => ⟨c', by rw [← h.calls]; exact hc, Later.refl c'⟩⟩

lemma Answer.advanced (h : Answer s k c e) (hs : Advanced s s') (hc : Later c c') : Answer s' k c' e := by
  unfold Answer at h ⊢
  rw [hc.dst, hc.request]
  exact hs.log _ h

lemma Sound.advanced (h : Sound s p e) (hs : Advanced s s') : Sound s' p e where
  request k ho := by
    obtain ⟨hk, hcall⟩ := h.request k ho
    refine ⟨by rw [hs.sends]; exact hk, fun c' hc' => ?_⟩
    obtain ⟨c, hc, hlater⟩ := hs.calls k c' hc'
    rw [hlater.node, hlater.dst, hlater.request]
    exact hcall c hc
  reply b o ho := by
    obtain ⟨hhandler, k, hk, hlt, hcall⟩ := h.reply b o ho
    refine ⟨hhandler, k, hk, by rw [hs.sends]; exact hlt, fun c' hc' => ?_⟩
    obtain ⟨c, hc, hlater⟩ := hs.calls k c' hc'
    obtain ⟨hdst, hanswer⟩ := hcall c hc
    exact ⟨hdst.trans hlater.dst.symm, hanswer.advanced hs hlater⟩
  handled := h.handled

def Carried (s s' : Net) : Prop := ∀ p e, s'.At p e → s.At p e ∨ (Sound s' p e ∧ s.Uses e.origin.root e.id)

lemma Advanced.uses (hs : Advanced s s') (hp : Carried s s') (h : s'.Uses k m) : s.Uses k m := by
  rcases h with ⟨c', hc', hopen, rfl⟩ | ⟨p, e, hat, rfl, rfl⟩
  · obtain ⟨c, hc, hlater⟩ := hs.calls k c' hc'
    exact .inl ⟨c, hc, hlater.stillOpen hopen, by unfold Call.id; rw [hlater.request]⟩
  · rcases hp p e hat with hat' | ⟨-, hu⟩
    · exact .inr ⟨p, e, hat', rfl, rfl⟩
    · exact hu

/-- An action that draws no id and only advances calls and carries messages on keeps the invariant. -/
lemma Inv.advance (h : Inv s) (hs : Advanced s s') (hp : Carried s s')
    (hlisted : ∀ a m k, s'.pending a m = some k → ∃ c, s'.calls k = some c ∧ c.node = a ∧ c.id = m ∧ c.Open)
    (hanswered : ∀ k c e, s'.calls k = some c → c.response = some e → Answer s' k c e)
    (hsettled : ∀ k c, s'.calls k = some c → c.completed = true ∨ c.phase = .done ∨ c.phase = .returned true →
      ∃ e, c.response = some e) : Inv s' where
  known k c' hc' := by
    obtain ⟨c, hc, -⟩ := hs.calls k c' hc'
    rw [hs.sends]
    exact h.known k c hc
  listed := hlisted
  sound p e hat := by
    rcases hp p e hat with hat' | ⟨hsound, -⟩
    · exact (h.sound p e hat').advanced hs
    · exact hsound
  unique k k' m hu hu' := h.unique k k' m (hs.uses hp hu) (hs.uses hp hu')
  answered := hanswered
  settled := hsettled

lemma Inv.moved (h : Inv s) (hs : SameCalls s s') (hp : Carried s s') : Inv s' := by
  refine h.advance hs.advanced hp ?_ ?_ ?_
  · rw [hs.pending, hs.calls]
    exact h.listed
  · rw [hs.calls]
    intro k c e hc he
    exact (h.answered k c e hc he).advanced hs.advanced (Later.refl c)
  · rw [hs.calls]
    exact h.settled

/-! ## Drawing an id -/

structure Grown (s s' : Net) : Prop where
  sends : s'.sends = s.sends + 1
  log : s'.log = s.log
  calls : ∀ k, k ≠ s.sends → s'.calls k = s.calls k
  pending : s'.pending = s.pending

lemma Sound.grown (h : Sound s p e) (hs : Grown s s') : Sound s' p e where
  request k ho := by
    obtain ⟨hk, hcall⟩ := h.request k ho
    rw [hs.calls k hk.ne, hs.sends]
    exact ⟨by omega, hcall⟩
  reply b o ho := by
    obtain ⟨hhandler, k, hk, hlt, hcall⟩ := h.reply b o ho
    refine ⟨hhandler, k, hk, by rw [hs.sends]; omega, ?_⟩
    rw [hs.calls k hlt.ne]
    unfold Answer
    rw [hs.log]
    exact hcall
  handled := h.handled

/-- an action that draws a fresh id for the send number `s.sends` keeps the invariant -/
lemma Inv.draw (h : Inv s) (hs : Grown s s') (hfresh : ∀ k, ¬ s.Uses k m)
    (hsound : ∀ p e, s'.At p e → s.At p e ∨ Sound s' p e)
    (huses : ∀ k m', s'.Uses k m' → s.Uses k m' ∨ (k = s.sends ∧ m' = m))
    (hnew : ∀ c, s'.calls s.sends = some c → c.response = none ∧ c.completed = false ∧ c.phase = .drawn) : Inv s' where
  known k c hc := by
    rw [hs.sends]
    by_cases hk : k = s.sends
    · omega
    · have := h.known k c (hs.calls k hk ▸ hc)
      omega
  listed a m k hp := by
    rw [hs.pending] at hp
    obtain ⟨c, hc, hrest⟩ := h.listed a m k hp
    exact ⟨c, (hs.calls k (h.known k c hc).ne).trans hc, hrest⟩
  sound p e hat := by
    rcases hsound p e hat with hat' | hnew
    · exact (h.sound p e hat').grown hs
    · exact hnew
  unique k k' m' hu hu' := by
    rcases huses k m' hu with hold | ⟨rfl, rfl⟩ <;> rcases huses k' _ hu' with hold' | ⟨rfl, hm⟩
    · exact h.unique k k' m' hold hold'
    · exact absurd (hm ▸ hold) (hfresh k)
    · exact absurd hold' (hfresh k')
    · rfl
  answered k c e hc he := by
    by_cases hk : k = s.sends
    · subst hk
      rw [(hnew c hc).1] at he
      cases he
    · unfold Answer
      rw [hs.log]
      exact h.answered k c e (hs.calls k hk ▸ hc) he
  settled k c hc hphase := by
    by_cases hk : k = s.sends
    · subst hk
      obtain ⟨-, hcompleted, hdrawn⟩ := hnew c hc
      simp [hcompleted, hdrawn] at hphase
    · exact h.settled k c (hs.calls k hk ▸ hc) hphase

lemma inv_call (h : Inv s) (hfresh : FreshId s (.call a dst type now payload)) : Inv
    (step s (.call a dst type now payload)) := by
  refine h.draw (m := s.nextMsgId a) ⟨rfl, rfl, fun k hk => update_of_ne hk _ _, rfl⟩ hfresh ?_ ?_ ?_
  · intro p e hat
    exact .inl (by simpa [step] using hat)
  · rintro k m' (⟨c, hc, hopen, rfl⟩ | ⟨p, e, hat, hroot, hid⟩)
    · by_cases hk : k = s.sends
      · subst hk
        obtain rfl := Option.some.inj ((calls_setCall_self ..).symm.trans hc)
        exact .inr ⟨rfl, rfl⟩
      · exact .inl (.inl ⟨c, (calls_setCall_of_ne _ _ hk).symm.trans hc, hopen, rfl⟩)
    · exact .inl (.inr ⟨p, e, by simpa [step] using hat, hroot, hid⟩)
  · intro c hc
    obtain rfl := Option.some.inj ((calls_setCall_self ..).symm.trans hc)
    exact ⟨rfl, rfl, rfl⟩

lemma at_post (h : (step s (.post a dst dsts type now payload)).At p e) :
    s.At p e ∨ (p = .outbox a ∧ e = ⟨s.draw a dst type now payload, .sent s.sends⟩) := by
  cases p with
  | queue src dst' => exact .inl h
  | outbox b =>
    obtain ⟨d, hd⟩ := h
    by_cases hb : b = a
    · subst hb
      simp only [step, update_self, mem_append, mem_singleton, Prod.mk.injEq] at hd
      rcases hd with hd | ⟨rfl, -⟩
      · exact .inl ⟨d, hd⟩
      · exact .inr ⟨rfl, rfl⟩
    · simp only [step, update_of_ne hb] at hd
      exact .inl ⟨d, hd⟩
  | taken b | handling b => exact .inl h

lemma inv_post (h : Inv s) (hfresh : FreshId s (.post a dst dsts type now payload)) :
    Inv (step s (.post a dst dsts type now payload)) := by
  have hnone : s.calls s.sends = none := by
    cases hc : s.calls s.sends with
    | none => rfl
    | some c => exact absurd (h.known _ c hc) (Nat.lt_irrefl _)
  refine h.draw (m := s.nextMsgId a) ⟨rfl, rfl, fun _ _ => rfl, rfl⟩ hfresh ?_ ?_ ?_
  · intro p e hat
    rcases at_post hat with hold | ⟨rfl, rfl⟩
    · exact .inl hold
    · right
      refine ⟨?_, ?_, ?_⟩
      · intro k hk
        obtain rfl := Origin.sent.inj hk
        refine ⟨Nat.lt_succ_self _, fun c hc => ?_⟩
        exact absurd (hnone.symm.trans hc).symm (Option.some_ne_none c)
      · intro b o ho
        cases ho
      · intro b hb
        cases hb
  · rintro k m' (⟨c, hc, hopen, rfl⟩ | ⟨p, e, hat, rfl, rfl⟩)
    · exact .inl (.inl ⟨c, hc, hopen, rfl⟩)
    · rcases at_post hat with hold | ⟨rfl, rfl⟩
      · exact .inl (.inr ⟨p, e, hold, rfl, rfl⟩)
      · exact .inr ⟨rfl, rfl⟩
  · intro c hc
    exact absurd (hnone.symm.trans hc).symm (Option.some_ne_none c)

/-! ## A call moves on -/

def Relisted (s t : Net) (k : ℕ) (c c' : Call) : Prop :=
  ∀ a m k', t.pending a m = some k' → (k' = k ∧ c.node = a ∧ c.id = m ∧ c'.Open) ∨ (k' ≠ k ∧ s.pending a m = some k')

section

variable (h : Inv s) (hc : s.calls k = some c)
include h hc

lemma Inv.relisted_same (hopen : c'.Open) : Relisted s s k c c' := by
  intro a m k' hp
  by_cases hk : k' = k
  · subst hk
    obtain ⟨c'', hc'', hnode, hid, -⟩ := h.listed a m k' hp
    obtain rfl := Option.some.inj (hc.symm.trans hc'')
    exact .inl ⟨rfl, hnode, hid, hopen⟩
  · exact .inr ⟨hk, hp⟩

lemma Inv.relisted_insert (hopen : c'.Open) : Relisted s (s.setPending c.node c.id (some k)) k c c' := by
  intro a m k' hp
  rw [pending_setPending] at hp
  split_ifs at hp with hsame
  · exact .inl ⟨(Option.some.inj hp).symm, hsame.1.symm, hsame.2.symm, hopen⟩
  · exact h.relisted_same hc hopen a m k' hp

lemma Inv.relisted_erase : Relisted s (s.setPending c.node c.id none) k c c' := by
  intro a m k' hp
  rw [pending_setPending] at hp
  split_ifs at hp with hsame
  by_cases hk : k' = k
  · subst hk
    obtain ⟨c'', hc'', hnode, hid, -⟩ := h.listed a m k' hp
    obtain rfl := Option.some.inj (hc.symm.trans hc'')
    exact absurd ⟨hnode.symm, hid.symm⟩ hsame
  · exact .inr ⟨hk, hp⟩

end

structure SameButTable (s t : Net) : Prop where
  calls : t.calls = s.calls
  sends : t.sends = s.sends
  log : t.log = s.log
  places : ∀ p e, t.At p e → s.At p e

lemma sameButTable_setPending (s : Net) (a m : UInt32) (x : Option ℕ) : SameButTable s (s.setPending a m x) :=
  ⟨rfl, rfl, rfl, fun p e h => (at_setPending s a m x p e).mp h⟩

/-- a call goes to a later stage, and its entry in the table is made or erased with it -/
lemma Inv.stage (h : Inv s) (ht : SameButTable s t) (hc : s.calls k = some c)
    (hlater : Later c c') (hlisted : Relisted s t k c c') (hresponse : c'.response = c.response)
    (hsettled : c'.completed = true ∨ c'.phase = .done ∨ c'.phase = .returned true → ∃ e, c.response = some e) :
    Inv (t.setCall k c') := by
  have hcall : ∀ k' c'', (t.setCall k c').calls k' = some c'' →
      (k' = k ∧ c'' = c') ∨ (k' ≠ k ∧ s.calls k' = some c'') := by
    intro k' c'' hc''
    by_cases hk : k' = k
    · subst hk
      exact .inl ⟨rfl, (Option.some.inj ((calls_setCall_self t k' c').symm.trans hc'')).symm⟩
    · rw [calls_setCall_of_ne t c' hk, ht.calls] at hc''
      exact .inr ⟨hk, hc''⟩
  have hadv : Advanced s (t.setCall k c') := by
    refine ⟨ht.sends, fun ev hev => ?_, fun k' c'' hc'' => ?_⟩
    · change ev ∈ t.log
      rw [ht.log]
      exact hev
    · rcases hcall k' c'' hc'' with ⟨rfl, rfl⟩ | ⟨-, hold⟩
      · exact ⟨c, hc, hlater⟩
      · exact ⟨c'', hold, Later.refl c''⟩
  refine h.advance hadv (fun p e hp => .inl (ht.places p e ((at_setCall t k c' p e).mp hp))) ?_ ?_ ?_
  · intro a m k' hp
    rcases hlisted a m k' hp with ⟨rfl, hnode, hid, hopen⟩ | ⟨hk, hold⟩
    · refine ⟨c', calls_setCall_self t k' c', hlater.node.trans hnode, ?_, hopen⟩
      unfold Call.id at hid ⊢
      rw [hlater.request]
      exact hid
    · obtain ⟨c'', hc'', hrest⟩ := h.listed a m k' hold
      refine ⟨c'', ?_, hrest⟩
      rw [calls_setCall_of_ne t c' hk, ht.calls]
      exact hc''
  · intro k' c'' e hc'' he
    rcases hcall k' c'' hc'' with ⟨rfl, rfl⟩ | ⟨-, hold⟩
    · exact (h.answered k' c e hc (hresponse ▸ he)).advanced hadv hlater
    · exact (h.answered k' c'' e hold he).advanced hadv (Later.refl c'')
  · intro k' c'' hc'' hphase
    rcases hcall k' c'' hc'' with ⟨rfl, rfl⟩ | ⟨-, hold⟩
    · rw [hresponse]
      exact hsettled hphase
    · exact h.settled k' c'' hold hphase

lemma SameButTable.refl (s : Net) : SameButTable s s := ⟨rfl, rfl, rfl, fun _ _ h => h⟩

lemma open_of_phase (h : c.phase = .drawn ∨ c.phase = .registered ∨ c.phase = .waiting ∨ c.phase = .done) : c.Open := by
  intro ok hphase
  rw [hphase] at h
  rcases h with h | h | h | h <;> cases h

lemma inv_callStep (h : Inv s) (hc : s.calls k = some c) (op : Op) : Inv (s.callStep k c op) := by
  have hcompleted := h.settled k c hc
  cases op with
  | register _ =>
    simp only [Net.callStep]
    split_ifs with hphase
    · refine h.stage (sameButTable_setPending ..) hc ⟨rfl, rfl, rfl, fun _ => open_of_phase (.inl hphase)⟩
        (h.relisted_insert hc (open_of_phase (by simp))) rfl ?_
      rintro (hdone | hdone | hdone)
      · exact hcompleted (.inl hdone)
      · cases hdone
      · cases hdone
    · exact h
  | send _ =>
    simp only [Net.callStep]
    split_ifs with hphase
    · have hopen : c.Open := open_of_phase (.inr (.inl hphase))
      have hearlier : ∀ phase : Phase, phase = .waiting ∨ phase = .returned false →
          c.completed = true ∨ phase = .done ∨ phase = .returned true → ∃ e, c.response = some e := by
        rintro phase (rfl | rfl) (hdone | hdone | hdone)
        all_goals first | exact hcompleted (.inl hdone) | cases hdone
      cases hpush : s.push c.node c.dst ⟨c.request, .sent k⟩ with
      | none =>
        exact h.stage (sameButTable_setPending ..) hc ⟨rfl, rfl, rfl, fun _ => hopen⟩ (h.relisted_erase hc) rfl
          (hearlier _ (.inr rfl))
      | some s1 =>
        have hsame := sameCalls_push hpush
        have hc1 : s1.calls k = some c := by rw [hsame.calls]; exact hc
        -- the request is under way before the call is marked as waiting
        have h1 : Inv s1 := by
          refine h.moved hsame fun p e hp => ?_
          rcases at_push hpush hp with hold | ⟨rfl, rfl⟩
          · exact .inl hold
          · refine .inr ⟨⟨?_, (by rintro _ _ ⟨⟩), (by rintro _ ⟨⟩)⟩, .inl ⟨c, hc, hopen, rfl⟩⟩
            intro k' hk'
            obtain rfl := Origin.sent.inj hk'
            refine ⟨hsame.sends ▸ h.known k c hc, fun c' hc' => ?_⟩
            obtain rfl := Option.some.inj (hc1.symm.trans hc')
            exact ⟨rfl, .inl rfl⟩
        exact h1.stage (SameButTable.refl s1) hc1 ⟨rfl, rfl, rfl, fun _ => hopen⟩
          (h1.relisted_same hc1 (open_of_phase (by simp))) rfl (hearlier _ (.inl rfl))
    · exact h
  | wake _ =>
    simp only [Net.callStep]
    split_ifs with hphase
    · exact h.stage (SameButTable.refl s) hc ⟨rfl, rfl, rfl, fun _ => open_of_phase (by simp [hphase.1])⟩
        (h.relisted_same hc (open_of_phase (by simp))) rfl fun _ => hcompleted (.inl hphase.2)
    · exact h
  | expire _ =>
    simp only [Net.callStep]
    split_ifs with hphase
    · refine h.stage (sameButTable_setPending ..) hc ⟨rfl, rfl, rfl, fun _ => open_of_phase (by simp [hphase.1])⟩
        (h.relisted_erase hc) rfl ?_
      rintro (hdone | hdone | hdone)
      · exact hcompleted (.inl hdone)
      · cases hdone
      · cases hdone
    · exact h
  | finish _ =>
    simp only [Net.callStep]
    split_ifs with hphase
    · exact h.stage (sameButTable_setPending ..) hc ⟨rfl, rfl, rfl, fun _ => open_of_phase (by simp [hphase])⟩
        (h.relisted_erase hc) rfl fun _ => hcompleted (.inr (.inl hphase))
    · exact h
  | call _ _ _ _ _ | post _ _ _ _ _ _ | emit _ _ | take _ _ | process _ _ | reply _ _ _ _ => exact h

lemma uses_of_at (h : s.At p e) : s.Uses e.origin.root e.id := .inr ⟨p, e, h, rfl, rfl⟩

lemma at_outbox {l : List (Envelope × List UInt32)} (h : ({ s with outbox := update s.outbox a l } : Net).At p f) :
    s.At p f ∨ (p = .outbox a ∧ ∃ dsts, (f, dsts) ∈ l) := by
  cases p with
  | outbox b =>
    by_cases hb : b = a
    · subst hb
      exact .inr ⟨rfl, by simpa [Net.At] using h⟩
    · exact .inl (by simpa [Net.At, update_of_ne hb] using h)
  | queue src dst | taken b | handling b => exact .inl h

lemma inv_emit (h : Inv s) (a : UInt32) (i : ℕ) : Inv (step s (.emit a i)) := by
  simp only [step]
  cases hi : (s.outbox a)[i]? with
  | none => exact h
  | some entry =>
    obtain ⟨e, dsts⟩ := entry
    have hat : s.At (.outbox a) e := ⟨dsts, mem_of_getElem? hi⟩
    have hsound := h.sound _ e hat
    cases dsts with
    | nil =>
      refine h.moved ⟨rfl, rfl, rfl, fun _ h => h⟩ fun p f hp => .inl ?_
      rcases at_outbox hp with hold | ⟨rfl, d, hd⟩
      · exact hold
      · exact ⟨d, mem_of_mem_eraseIdx hd⟩
    | cons dst dsts =>
      have hbox : SameCalls s { s with outbox := update s.outbox a ((s.outbox a).set i (e, dsts)) } :=
        ⟨rfl, rfl, rfl, fun _ h => h⟩
      have hsame := hbox.trans (sameCalls_pushOrDrop _ a dst e)
      refine h.moved hsame fun p f hp => ?_
      rcases at_pushOrDrop hp with hold | ⟨rfl, rfl⟩
      · rcases at_outbox hold with hold | ⟨rfl, d, hd⟩
        · exact .inl hold
        · rcases mem_or_eq_of_mem_set hd with hd | hd
          · exact .inl ⟨d, hd⟩
          · obtain ⟨rfl, -⟩ := Prod.mk.inj hd
            exact .inl hat
      · -- what is posted belongs to no call
        refine .inr ⟨⟨?_, ((hsound.advanced hsame.advanced).reply), (by rintro _ ⟨⟩)⟩, uses_of_at hat⟩
        intro k hk
        obtain ⟨hlt, hcall⟩ := (hsound.advanced hsame.advanced).request k hk
        refine ⟨hlt, fun c hc => ?_⟩
        rcases (hcall c hc).2 with hp | ⟨-, hp | hp⟩ <;> cases hp

lemma inv_take (h : Inv s) (a src : UInt32) : Inv (step s (.take a src)) := by
  simp only [step]
  split_ifs with hself
  · exact h
  · cases hq : s.queues src a with
    | nil => exact h
    | cons e rest =>
      have hat : s.At (.queue src a) e := by simp [Net.At, hq]
      have hsound := h.sound _ e hat
      refine h.moved ⟨rfl, rfl, rfl, fun _ h => h⟩ fun p f hp => ?_
      cases p with
      | outbox b | handling b => exact .inl hp
      | queue src' dst' =>
        left
        by_cases hs : src' = src
        · subst hs
          by_cases hd : dst' = a
          · subst hd
            simp only [Net.At, update_self] at hp
            simp [Net.At, hq, hp]
          · simpa [Net.At, update_of_ne hd] using hp
        · simpa [Net.At, update_of_ne hs] using hp
      | taken b =>
        by_cases hb : b = a
        · subst hb
          simp only [Net.At, update_self, mem_append, mem_singleton] at hp
          rcases hp with hp | rfl
          · exact .inl hp
          · right
            refine ⟨⟨?_, hsound.reply, (by rintro _ ⟨⟩)⟩, uses_of_at hat⟩
            intro k hk
            obtain ⟨hlt, hcall⟩ := hsound.request k hk
            refine ⟨hlt, fun c hc => ⟨(hcall c hc).1, ?_⟩⟩
            rcases (hcall c hc).2 with hp | ⟨-, hp | hp⟩
            · obtain ⟨rfl, rfl⟩ := Place.queue.inj hp
              exact .inr ⟨hself, .inl rfl⟩
            · cases hp
            · cases hp
        · exact .inl (by simpa [Net.At, update_of_ne hb] using hp)

/-! ## Messages are processed -/

/-- A message found in the table is the answer to the call listed there: it is not the request, which is at the
destination. -/
lemma Inv.pending_answer (h : Inv s) (hat : s.At (.taken a) e) (hp : s.pending a e.id = some k) :
    ∃ c, s.calls k = some c ∧ Answer s k c e ∧ ∀ j, e.origin ≠ .sent j := by
  obtain ⟨c, hc, hnode, hid, hopen⟩ := h.listed a e.id k hp
  have hroot : e.origin.root = k := h.unique _ _ e.id (uses_of_at hat) (.inl ⟨c, hc, hopen, hid⟩)
  have hsound := h.sound _ e hat
  have hnotSent : ∀ j, e.origin ≠ .sent j := by
    intro j hj
    obtain rfl : j = k := by rw [hj] at hroot; exact hroot
    rcases ((hsound.request j hj).2 c hc).2 with hplace | ⟨hne, hplace | hplace⟩
    · cases hplace
    · exact hne (hnode.trans (Place.taken.inj hplace))
    · cases hplace
  refine ⟨c, hc, ?_, hnotSent⟩
  cases ho : e.origin with
  | sent j => exact absurd ho (hnotSent j)
  | reply b o =>
    obtain ⟨-, j, rfl, -, hcall⟩ := hsound.reply b o ho
    obtain rfl : j = k := by rw [ho] at hroot; exact hroot
    exact (hcall c hc).2

lemma at_takenErase {i : ℕ}
    (h : ({ s with taken := update s.taken a ((s.taken a).eraseIdx i) } : Net).At p f) : s.At p f := by
  cases p with
  | taken b =>
    by_cases hb : b = a
    · subst hb
      exact mem_of_mem_eraseIdx (by simpa [Net.At] using h)
    · simpa [Net.At, update_of_ne hb] using h
  | queue src dst | outbox b | handling b => exact h

lemma inv_consume (h : Inv s) (ht : SameCalls s t) (hplaces : ∀ p f, t.At p f → s.At p f)
    (hc : s.calls k = some c) (hanswer : Answer s k c e) :
    Inv ((t.setCall k { c with completed := true, response := some e }).note (.consumed a e k)) := by
  set c' : Call := { c with completed := true, response := some e } with hc'
  have hlater : Later c c' := ⟨rfl, rfl, rfl, id⟩
  have hcall : ∀ k' c'', ((t.setCall k c').note (.consumed a e k)).calls k' = some c'' →
      (k' = k ∧ c'' = c') ∨ (k' ≠ k ∧ s.calls k' = some c'') := by
    intro k' c'' hc''
    change (t.setCall k c').calls k' = some c'' at hc''
    by_cases hk : k' = k
    · subst hk
      exact .inl ⟨rfl, (Option.some.inj ((calls_setCall_self t k' c').symm.trans hc'')).symm⟩
    · rw [calls_setCall_of_ne t c' hk, ht.calls] at hc''
      exact .inr ⟨hk, hc''⟩
  have hadv : Advanced s ((t.setCall k c').note (.consumed a e k)) := by
    refine ⟨ht.sends, fun ev hev => mem_append_left _ (ht.log ev hev), fun k' c'' hc'' => ?_⟩
    rcases hcall k' c'' hc'' with ⟨rfl, rfl⟩ | ⟨-, hold⟩
    · exact ⟨c, hc, hlater⟩
    · exact ⟨c'', hold, Later.refl c''⟩
  refine h.advance hadv (fun p f hp => .inl (hplaces p f (by simpa using hp))) ?_ ?_ ?_
  · intro b m k' hp
    change t.pending b m = some k' at hp
    rw [ht.pending] at hp
    obtain ⟨c'', hc'', hnode, hid, hopen⟩ := h.listed b m k' hp
    by_cases hk : k' = k
    · subst hk
      obtain rfl := Option.some.inj (hc.symm.trans hc'')
      exact ⟨c', calls_setCall_self t k' c', hnode, hid, hopen⟩
    · refine ⟨c'', ?_, hnode, hid, hopen⟩
      change (t.setCall k c').calls k' = some c''
      rw [calls_setCall_of_ne t c' hk, ht.calls]
      exact hc''
  · intro k' c'' f hc'' hf
    rcases hcall k' c'' hc'' with ⟨rfl, rfl⟩ | ⟨-, hold⟩
    · obtain rfl := Option.some.inj hf
      exact hanswer.advanced hadv hlater
    · exact (h.answered k' c'' f hold hf).advanced hadv (Later.refl c'')
  · intro k' c'' hc'' hphase
    rcases hcall k' c'' hc'' with ⟨rfl, rfl⟩ | ⟨-, hold⟩
    · exact ⟨e, rfl⟩
    · exact h.settled k' c'' hold hphase

lemma inv_hand (h : Inv s) (ht : SameCalls s t) (hplaces : ∀ p f, t.At p f → s.At p f)
    (hat : s.At (.taken a) e) (hhandler : hasHandler e.msg.header.msgType = true) :
    Inv (Net.note { t with handling := update t.handling a (t.handling a ++ [e]) } (.handed a e)) := by
  have hsound := h.sound _ e hat
  have hsame : SameCalls s
      (Net.note { t with handling := update t.handling a (t.handling a ++ [e]) } (.handed a e)) :=
    ⟨ht.calls, ht.pending, ht.sends, fun ev hev => mem_append_left _ (ht.log ev hev)⟩
  refine h.moved hsame fun p f hp => ?_
  rw [at_note] at hp
  cases p with
  | handling b =>
    by_cases hb : b = a
    · subst hb
      simp only [Net.At, update_self, mem_append, mem_singleton] at hp
      rcases hp with hp | rfl
      · exact .inl (hplaces (.handling b) f hp)
      · refine .inr ⟨⟨?_, ?_, fun _ _ => hhandler⟩, uses_of_at hat⟩
        · intro k hk
          obtain ⟨hlt, hcall⟩ := (hsound.advanced hsame.advanced).request k hk
          refine ⟨hlt, fun c hc => ⟨(hcall c hc).1, ?_⟩⟩
          rcases (hcall c hc).2 with hp | ⟨hne, hp | hp⟩
          · cases hp
          · exact .inr ⟨hne, .inr (congrArg Place.handling (Place.taken.inj hp))⟩
          · cases hp
        · intro b' o ho
          exact absurd hhandler (by simp [(hsound.reply b' o ho).1])
    · exact .inl (hplaces (.handling b) f (by simpa [Net.At, update_of_ne hb] using hp))
  | queue src dst => exact .inl (hplaces (.queue src dst) f hp)
  | outbox b => exact .inl (hplaces (.outbox b) f hp)
  | taken b => exact .inl (hplaces (.taken b) f hp)

lemma inv_process (h : Inv s) (a : UInt32) (i : ℕ) : Inv (step s (.process a i)) := by
  simp only [step]
  cases hi : (s.taken a)[i]? with
  | none => exact h
  | some e =>
    have hat : s.At (.taken a) e := mem_of_getElem? hi
    have hsame : SameCalls s { s with taken := update s.taken a ((s.taken a).eraseIdx i) } :=
      ⟨rfl, rfl, rfl, fun _ h => h⟩
    simp only [Net.matchMessage]
    cases hp : s.pending a e.id with
    | some k =>
      obtain ⟨c, hc, hanswer, -⟩ := h.pending_answer hat hp
      simp only [hc]
      exact inv_consume h hsame (fun _ _ => at_takenErase) hc hanswer
    | none =>
      dsimp only
      split_ifs with hhandler
      · exact inv_hand h hsame (fun _ _ => at_takenErase) hat hhandler
      · refine h.moved (hsame.trans (sameCalls_note ..)) fun p f hp => .inl ?_
        exact at_takenErase ((at_note ..).mp hp)

lemma at_handlingErase {i : ℕ}
    (h : ({ s with handling := update s.handling a ((s.handling a).eraseIdx i) } : Net).At p f) :
    s.At p f := by
  cases p with
  | handling b =>
    by_cases hb : b = a
    · subst hb
      exact mem_of_mem_eraseIdx (by simpa [Net.At] using h)
    · simpa [Net.At, update_of_ne hb] using h
  | queue src dst | outbox b | taken b => exact h

lemma inv_reply (h : Inv s) (a : UInt32) (i : ℕ) (now : UInt64) (payload : Payload) :
    Inv (step s (.reply a i now payload)) := by
  simp only [step]
  cases hi : (s.handling a)[i]? with
  | none => exact h
  | some e =>
    have hat : s.At (.handling a) e := mem_of_getElem? hi
    have hsound := h.sound _ e hat
    have herase : SameCalls s { s with handling := update s.handling a ((s.handling a).eraseIdx i) } :=
      ⟨rfl, rfl, rfl, fun _ h => h⟩
    simp only [Net.answer]
    split_ifs with htype
    · exact h.moved herase fun p f hp => .inl (at_handlingErase hp)
    · set r := replyTo a e now payload
      have hsame := (herase.trans (sameCalls_pushOrDrop _ a e.msg.header.srcNodeId r)).trans
        (sameCalls_note _ (.replied a e r))
      refine h.moved hsame fun p f hp => ?_
      rw [at_note] at hp
      rcases at_pushOrDrop hp with hold | ⟨rfl, rfl⟩
      · exact .inl (at_handlingErase hold)
      · refine .inr ⟨⟨(by rintro _ ⟨⟩), ?_, (by rintro _ ⟨⟩)⟩, .inr ⟨_, e, hat, rfl, rfl⟩⟩
        intro b o ho
        obtain ⟨rfl, rfl⟩ := Origin.reply.inj ho
        refine ⟨hasHandler_responseType _, ?_⟩
        cases he : e.origin with
        | reply b' o' => exact absurd (hsound.handled a rfl) (by simp [(hsound.reply b' o' he).1])
        | sent k =>
          obtain ⟨hlt, hcall⟩ := hsound.request k he
          refine ⟨k, rfl, hlt.trans_eq hsame.sends.symm, fun c hc => ?_⟩
          rw [hsame.calls] at hc
          obtain ⟨hmsg, hplace⟩ := hcall c hc
          have hdst : a = c.dst := by
            rcases hplace with hp | ⟨-, hp | hp⟩
            · cases hp
            · cases hp
            · exact Place.handling.inj hp
          have heq : (⟨c.request, .sent k⟩ : Envelope) = e := by rw [← hmsg, ← he]
          refine ⟨hdst, ?_⟩
          unfold Answer
          rw [← hdst, heq]
          exact mem_append_right _ mem_cons_self

/-- Every action keeps the invariant, if an id it draws is fresh. -/
lemma inv_step (h : Inv s) (op : Op) (hfresh : FreshId s op) : Inv (step s op) := by
  cases op with
  | call a dst type now payload => exact inv_call h hfresh
  | register k | send k | wake k | expire k | finish k =>
    simp only [step]
    cases hc : s.calls k with
    | none => exact h
    | some c => exact inv_callStep h hc _
  | post a dst dsts type now payload => exact inv_post h hfresh
  | emit a i => exact inv_emit h a i
  | take a src => exact inv_take h a src
  | process a i => exact inv_process h a i
  | reply a i now payload => exact inv_reply h a i now payload

/-- what was sent on a thread's own account goes to the handler of its type and completes no call -/
def HandsOver (s : Net) (op : Op) : Prop :=
  ∀ a i e j, op = .process a i → (s.taken a)[i]? = some e → e.origin = .sent j →
    (step s op).log = s.log ++ [if hasHandler e.msg.header.msgType then .handed a e else .unhandled a e] ∧
    (step s op).calls = s.calls

lemma handsOver_of_inv (h : Inv s) (op : Op) : HandsOver s op := by
  rintro a i e j rfl hi hsent
  have hat : s.At (.taken a) e := mem_of_getElem? hi
  have hnone : s.pending a e.id = none := by
    cases hp : s.pending a e.id with
    | none => rfl
    | some k =>
      obtain ⟨-, -, -, hnotSent⟩ := h.pending_answer hat hp
      exact absurd hsent (hnotSent j)
  simp only [step, hi, Net.matchMessage, hnone]
  split_ifs with hhandler
  · exact ⟨rfl, rfl⟩
  · exact ⟨rfl, rfl⟩

/-- If an id is drawn only while it is in use nowhere, a call that returned true holds the response to its own request,
and every request is handled. -/
theorem requests_matched (ops : List Op) (hfresh : AllSteps step FreshId Net.init ops) :
    (∀ k c, (run step Net.init ops).calls k = some c → c.phase = .returned true →
      ∃ e, c.response = some e ∧ Event.replied c.dst ⟨c.request, .sent k⟩ e ∈ (run step Net.init ops).log) ∧
    AllSteps step HandsOver Net.init ops := by
  have hstep : ∀ s op, Inv s → FreshId s op → Inv (step s op) := fun s op h hf => inv_step h op hf
  refine ⟨?_, allSteps_of_inv hstep (fun s op h _ => handsOver_of_inv h op) inv_init hfresh⟩
  intro k c hc hphase
  have hinv := run_inv hstep inv_init hfresh
  obtain ⟨e, he⟩ := hinv.settled k c hc (.inr (.inr hphase))
  exact ⟨e, he, hinv.answered k c e hc he⟩

def oneCall : List Op :=
  [.call 1 2 .readReq 0 (.raw []), .register 0, .send 0, .take 2 1, .process 2 0, .reply 2 0 0 (.raw []), .take 1 2,
    .process 1 0, .wake 0, .finish 0]

lemma fresh_init (m : UInt32) (k : ℕ) : ¬ Net.init.Uses k m := by
  rintro (⟨c, hc, -⟩ | ⟨p, e, hp, -⟩)
  · cases hc
  · cases p <;> simp [Net.At, Net.init] at hp

theorem requests_matched_oneCall : ((run step Net.init oneCall).calls 0).map Call.phase = some (.returned true) ∧
    (∀ k c, (run step Net.init oneCall).calls k = some c → c.phase = .returned true →
      ∃ e, c.response = some e ∧ Event.replied c.dst ⟨c.request, .sent k⟩ e ∈ (run step Net.init oneCall).log) ∧
    AllSteps step HandsOver Net.init oneCall :=
  ⟨by decide +kernel, requests_matched oneCall
    ⟨fun k => fresh_init _ k, trivial, trivial, trivial, trivial, trivial, trivial, trivial, trivial, trivial, trivial⟩⟩

def crossedCalls : List Op :=
  [.call 1 2 .readReq 0 (.raw []), .call 2 1 .writeReq 0 (.raw []), .register 0, .register 1, .send 0, .send 1,
    .take 1 2, .process 1 0, .wake 0, .finish 0]

/-- both requests have the id 1: node 1's call returns true with node 2's write request as its response -/
theorem request_taken_for_response : ((run step Net.init crossedCalls).calls 0).map (fun c => (c.phase, c.response)) =
      some (.returned true, some ⟨Net.init.draw 2 1 .writeReq 0 (.raw []), .sent 1⟩) ∧
    (run step Net.init crossedCalls).log = [.consumed 1 ⟨Net.init.draw 2 1 .writeReq 0 (.raw []), .sent 1⟩ 0] ∧
    ¬ (∀ k c, (run step Net.init crossedCalls).calls k = some c → c.phase = .returned true → ∃ e, c.response = some e ∧
        Event.replied c.dst ⟨c.request, .sent k⟩ e ∈ (run step Net.init crossedCalls).log) := by
  have hcall : ((run step Net.init crossedCalls).calls 0).map (fun c => (c.phase, c.response)) =
      some (.returned true, some ⟨Net.init.draw 2 1 .writeReq 0 (.raw []), .sent 1⟩) := by decide +kernel
  have hlog : (run step Net.init crossedCalls).log =
      [.consumed 1 ⟨Net.init.draw 2 1 .writeReq 0 (.raw []), .sent 1⟩ 0] := by decide +kernel
  refine ⟨hcall, hlog, fun h => ?_⟩
  obtain ⟨c, hc, heq⟩ := Option.map_eq_some_iff.mp hcall
  obtain ⟨e, -, he⟩ := h 0 c hc (Prod.mk.inj heq).1
  rw [hlog, mem_singleton] at he
  cases he

end CxlMemSim.Dist.Exchange
