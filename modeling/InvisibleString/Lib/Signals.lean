import InvisibleString.Lib.EventLoop

/- # `Lib.Signals` — programs that look at a signal

While a program waits, somebody may raise a signal in the memory of its process.  Nothing
happens until the program looks: it goes on as it would have, statement by statement, and then
takes another way.  `Twin` compares the two copies, `Alert` asks it of a thread at every one of
its statements, and `Departs` says that there was still a look to come.

**Proved here.**

    a signal that makes a difference leads where a look at it leads  (`Twin.of_departs`)
    programs one after the other heed the signal when each of them does  (`Proc.Heeds.bind`)
-/

namespace EventLoop

structure Signal (M : Type) where
  /-- the memory of a process that was not signalled -/
  Calm : M → Prop
  raise : M → M

variable {S : Signature} {M α β : Type} {σ : Signal M}

/-! ## Undisturbed runs -/

/-- How a program goes on behind another: an error is passed on. -/
def Proc.next (f : α → Proc S M β) : Except S.Err α → Proc S M β
  | .ok a => f a
  | .error e => Proc.fail e

theorem Proc.bind_eq (x : Proc S M α) (f : α → Proc S M β) :
    (x >>= f) = fun m => (x m).andThen (Proc.next f) := by
  funext m
  refine congrArg ((x m).andThen ·) (funext fun r => ?_)
  cases r with
  | ok a => rfl
  | error e => rfl

section Leads

variable (Ask : M → S.Op → Prop)

/-- Where every statement is answered and nobody else touches the memory, the thread comes to a
thread with `G`, and asks before that for what `Ask` admits. -/
def Thread.Leads (G : Thread S M α → Prop) : Thread S M α → Prop
  | .done m r => G (.done m r)
  | .await m op k => G (.await m op k) ∨ Ask m op ∧ ∀ a, (k (.ok a) m).Leads G

/-- The thread has returned, with `C`. -/
def Thread.Returned (C : α → M → Prop) (t : Thread S M α) : Prop :=
  ∃ m a, t = .done m (.ok a) ∧ C a m

/-- Undisturbed, `p` returns with `C`. -/
def Proc.LeadsTo (p : Proc S M α) (m : M) (C : α → M → Prop) : Prop :=
  (p m).Leads Ask (Thread.Returned C)

variable {Ask} {G G' : Thread S M α → Prop}

theorem Thread.Leads.of {t : Thread S M α} (h : G t) : t.Leads Ask G := by
  cases t with
  | done m r => exact h
  | await m op k => exact .inl h

theorem Thread.Leads.andThen {G' : Thread S M β → Prop} {f : Except S.Err α → Proc S M β}
    {t : Thread S M α} (h : t.Leads Ask G) (hG : ∀ t, G t → (t.andThen f).Leads Ask G') :
    (t.andThen f).Leads Ask G' := by
  induction t with
  | done m r => exact hG _ h
  | await m op k ih =>
    rcases h with h | ⟨hask, h⟩
    · exact hG _ h
    · exact .inr ⟨hask, fun a => ih _ _ (h a)⟩

theorem Proc.LeadsTo.ret {C : α → M → Prop} {a : α} {m : M} (h : C a m) :
    (Proc.ret (S := S) a).LeadsTo Ask m C := ⟨m, a, rfl, h⟩

theorem Proc.LeadsTo.call {op : S.Op} {C : S.Ret op → M → Prop} {m : M} (hask : Ask m op)
    (h : ∀ a, C a m) : (Proc.call op : Proc S M (S.Ret op)).LeadsTo Ask m C :=
  .inr ⟨hask, fun a => ⟨m, a, rfl, h a⟩⟩

theorem Thread.Leads.next {C : α → M → Prop} {C' : β → M → Prop} {f : α → Proc S M β}
    (hf : ∀ a m, C a m → (f a).LeadsTo Ask m C') {t : Thread S M α}
    (h : t.Leads Ask (Thread.Returned C)) :
    (t.andThen (Proc.next f)).Leads Ask (Thread.Returned C') := by
  refine h.andThen ?_
  rintro _ ⟨m, a, rfl, ha⟩
  exact hf a m ha

theorem Proc.LeadsTo.bind {C : α → M → Prop} {C' : β → M → Prop} {x : Proc S M α}
    {f : α → Proc S M β} {m : M} (hx : x.LeadsTo Ask m C)
    (hf : ∀ a m', C a m' → (f a).LeadsTo Ask m' C') : (x >>= f).LeadsTo Ask m C' := by
  rw [Proc.bind_eq]
  exact Thread.Leads.next hf hx

end Leads

/-! ## Twins -/

section Twins

variable (σ) (Waits : S.Op → Prop)

/-- The second thread goes on like the first although the signal is up, to a result with `E`, or
it has `G`. -/
def Thread.Twin (E : α → Prop) (G : Thread S M α → Prop) : Thread S M α → Thread S M α → Prop
  | .done m r, t' => (σ.Calm m ∧ (∀ a, r = .ok a → E a) ∧ t' = .done (σ.raise m) r) ∨ G t'
  | .await m op k, t' =>
    (σ.Calm m ∧ ∃ k', t' = .await (σ.raise m) op k' ∧
      ∀ a, Twin E G (k (.ok a) m) (k' (.ok a) (σ.raise m))) ∨ G t'

/-- The second thread has come to the same statement or the same end. -/
def Thread.Alike : Thread S M α → Thread S M α → Prop
  | .done m r, t' => t' = .done (σ.raise m) r
  | .await m op _, t' => ∃ k', t' = .await (σ.raise m) op k'

/-- Given the same answers, the second thread comes to `u`, where it is no more like the first;
before that both ask for what `Open` admits. -/
inductive Thread.Departs {W : Type} (step : Answers S M W) (Open : S.Op → Prop) :
    Thread S M α → Thread S M α → W → Thread S M α → W → Prop
  | here {t u w} (h : ¬ t.Alike σ u) : Departs step Open t u w u w
  | answer {m op k k' w a w₁ t' u w₂} (hopen : Open op)
      (hs : step op (σ.raise m) w (.ok a) (σ.raise m) w₁) (ht : t' = .await (σ.raise m) op k')
      (h : Departs step Open (k (.ok a) m) (k' (.ok a) (σ.raise m)) w₁ u w₂) :
      Departs step Open (.await m op k) t' w u w₂

/-- Whenever the signal is raised at a statement that waits, the thread goes on as if it were not,
or has `G`. -/
def Thread.Alert (E : α → Prop) (G : Thread S M α → Prop) : Thread S M α → Prop
  | .done m _ => σ.Calm m
  | .await m op k => σ.Calm m ∧ ∀ r m', σ.Calm m' →
      (Waits op → (k r m').Twin σ E G (k r (σ.raise m'))) ∧ (k r m').Alert E G

/-- Started with the signal up, the program goes on as if it were not, or has `G`. -/
def Proc.Twins (E : α → Prop) (G : Thread S M α → Prop) (p : Proc S M α) : Prop :=
  ∀ m, σ.Calm m → (p m).Twin σ E G (p (σ.raise m))

def Proc.Alerts (E : α → Prop) (G : Thread S M α → Prop) (p : Proc S M α) : Prop :=
  ∀ m, σ.Calm m → (p m).Alert σ Waits E G

/-- At its start and at every statement that waits. -/
def Proc.Heeds (E : α → Prop) (G : Thread S M α → Prop) (p : Proc S M α) : Prop :=
  p.Twins σ E G ∧ p.Alerts σ Waits E G

variable {σ Waits} {E : α → Prop} {E' : β → Prop} {G : Thread S M α → Prop}
  {G' : Thread S M β → Prop}

theorem Thread.Twin.of {t t' : Thread S M α} (h : G t') : t.Twin σ E G t' := by
  cases t with
  | done m r => exact .inr h
  | await m op k => exact .inr h

theorem Thread.Twin.mono {G' : Thread S M α → Prop} {t t' : Thread S M α} (h : t.Twin σ E G t')
    (hG : ∀ t, G t → G' t) : t.Twin σ E G' t' := by
  induction t generalizing t' with
  | done m r => exact h.imp id (hG t')
  | await m op k ih =>
    rcases h with ⟨hcalm, k', rfl, h⟩ | h
    · exact .inl ⟨hcalm, k', rfl, fun a => ih _ _ (h a)⟩
    · exact .inr (hG t' h)

theorem Thread.Twin.andThen {f : Except S.Err α → Proc S M β} {t t' : Thread S M α}
    (h : t.Twin σ E G t')
    (hf : ∀ r, (∀ a, r = .ok a → E a) → (f r).Twins σ E' G')
    (hG : ∀ t, G t → G' (t.andThen f)) : (t.andThen f).Twin σ E' G' (t'.andThen f) := by
  induction t generalizing t' with
  | done m r =>
    rcases h with ⟨hcalm, he, rfl⟩ | h
    · exact hf r he m hcalm
    · exact .of (hG t' h)
  | await m op k ih =>
    rcases h with ⟨hcalm, k', rfl, h⟩ | h
    · exact .inl ⟨hcalm, _, rfl, fun a => ih _ _ (h a)⟩
    · exact .of (hG t' h)

theorem Thread.Alert.mono {G' : Thread S M α → Prop} {t : Thread S M α}
    (h : t.Alert σ Waits E G) (hG : ∀ t, G t → G' t) : t.Alert σ Waits E G' := by
  induction t with
  | done m r => exact h
  | await m op k ih =>
    refine ⟨h.1, fun r m' hcalm => ?_⟩
    obtain ⟨htwin, halert⟩ := h.2 r m' hcalm
    exact ⟨fun hwaits => (htwin hwaits).mono hG, ih r m' halert⟩

theorem Thread.Alert.andThen {f : Except S.Err α → Proc S M β} {t : Thread S M α}
    (h : t.Alert σ Waits E G)
    (hf : ∀ r, (∀ a, r = .ok a → E a) → (f r).Twins σ E' G')
    (halerts : ∀ r, (f r).Alerts σ Waits E' G')
    (hG : ∀ t, G t → G' (t.andThen f)) : (t.andThen f).Alert σ Waits E' G' := by
  induction t with
  | done m r => exact halerts r m h
  | await m op k ih =>
    refine ⟨h.1, fun r m' hcalm => ?_⟩
    obtain ⟨htwin, halert⟩ := h.2 r m' hcalm
    exact ⟨fun hwaits => (htwin hwaits).andThen hf hG, ih r m' halert⟩

/-- A thread for which the signal makes a difference comes to `G` on the way. -/
theorem Thread.Twin.of_departs {W : Type} {step : Answers S M W} {Open : S.Op → Prop}
    {t t' u : Thread S M α} {w w' : W} (h : t.Twin σ E G t')
    (hd : t.Departs σ step Open t' w u w') :
    ∃ v x, t'.Reaches (fun op m w r m' w' => Open op ∧ step op m w r m' w') w v x ∧ G v ∧
      v.Reaches step x u w' := by
  have hlater : ∀ {t t' u : Thread S M α} {w w' : W},
      t.Departs σ step Open t' w u w' → t'.Reaches step w u w' := by
    intro t t' u w w' hd
    induction hd with
    | here => exact .refl _ _
    | answer _ hs ht _ ih =>
      subst ht
      exact .answer hs ih
  induction hd with
  | @here t t' w hne =>
    refine ⟨t', w, .refl _ _, ?_, .refl _ _⟩
    cases t with
    | done m r =>
      rcases h with ⟨-, -, heq⟩ | h
      · exact absurd heq hne
      · exact h
    | await m op k =>
      rcases h with ⟨-, k', heq, -⟩ | h
      · exact absurd ⟨k', heq⟩ hne
      · exact h
  | @answer m op k k' w a w₁ t' u w₂ hopen hs ht hd ih =>
    subst ht
    rcases h with ⟨-, k'', heq, h⟩ | h
    · cases heq
      obtain ⟨v, x, hreach, hv, hrest⟩ := ih (h a)
      exact ⟨v, x, .answer ⟨hopen, hs⟩ hreach, hv, hrest⟩
    · exact ⟨_, w, .refl _ _, h, .answer hs (hlater hd)⟩

theorem Thread.Alert.of_reaches {W : Type} {step : Answers S M W}
    (hstep : ∀ op m w r m' w', step op m w r m' w' → σ.Calm m → σ.Calm m')
    {t t' : Thread S M α} {w w' : W}
    (h : t.Alert σ Waits E G) (hr : t.Reaches step w t' w') : t'.Alert σ Waits E G := by
  induction hr with
  | refl => exact h
  | answer hs _ ih => exact ih (h.2 _ _ (hstep _ _ _ _ _ _ hs h.1)).2

/-! ## Programs -/

theorem Proc.Heeds.mono {G' : Thread S M α → Prop} {p : Proc S M α} (h : p.Heeds σ Waits E G)
    (hG : ∀ t, G t → G' t) : p.Heeds σ Waits E G' :=
  ⟨fun m hm => (h.1 m hm).mono hG, fun m hm => (h.2 m hm).mono hG⟩

theorem Proc.Twins.ret {a : α} (ha : E a) : (Proc.ret (S := S) a).Twins σ E G := by
  refine fun m hm => .inl ⟨hm, ?_, rfl⟩
  rintro _ ⟨⟩
  exact ha

theorem Proc.Twins.fail (e : S.Err) : (Proc.fail e : Proc S M α).Twins σ E G :=
  fun _ hm => .inl ⟨hm, nofun, rfl⟩

theorem Proc.Heeds.ret {a : α} (ha : E a) : (Proc.ret (S := S) a).Heeds σ Waits E G :=
  ⟨Proc.Twins.ret ha, fun _ hm => hm⟩

theorem Proc.Heeds.fail (e : S.Err) : (Proc.fail e : Proc S M α).Heeds σ Waits E G :=
  ⟨Proc.Twins.fail e, fun _ hm => hm⟩

theorem Proc.Heeds.call (op : S.Op) {G : Thread S M (S.Ret op) → Prop} :
    (Proc.call op : Proc S M (S.Ret op)).Heeds σ Waits (fun _ => True) G := by
  have hsame (r : Except S.Err (S.Ret op)) (m : M) (hm : σ.Calm m) :
      (Thread.done m r).Twin σ (fun _ => True) G (.done (σ.raise m) r) :=
    .inl ⟨hm, fun _ _ => trivial, rfl⟩
  exact ⟨fun m hm => .inl ⟨hm, _, rfl, fun a => hsame (.ok a) m hm⟩,
    fun m hm => ⟨hm, fun r m' hm' => ⟨fun _ => hsame r m' hm', hm'⟩⟩⟩

theorem Proc.Heeds.update {f : M → M} {G : Thread S M Unit → Prop}
    (hcalm : ∀ m, σ.Calm m → σ.Calm (f m)) (hraise : ∀ m, f (σ.raise m) = σ.raise (f m)) :
    (Proc.update f : Proc S M Unit).Heeds σ Waits (fun _ => True) G := by
  refine ⟨fun m hm => .inl ⟨hcalm m hm, fun _ _ => trivial, ?_⟩, fun m hm => hcalm m hm⟩
  show Thread.done (f (σ.raise m)) _ = _
  rw [hraise]

theorem Proc.twins_next {f : α → Proc S M β} (hf : ∀ a, E a → (f a).Twins σ E' G')
    (r : Except S.Err α) (hr : ∀ a, r = .ok a → E a) : (Proc.next f r).Twins σ E' G' := by
  cases r with
  | ok a => exact hf a (hr a rfl)
  | error e => exact Proc.Twins.fail e

theorem Proc.alerts_next {f : α → Proc S M β} (hf : ∀ a, (f a).Alerts σ Waits E' G')
    (r : Except S.Err α) : (Proc.next f r).Alerts σ Waits E' G' := by
  cases r with
  | ok a => exact hf a
  | error e => exact (Proc.Heeds.fail e).2

theorem Proc.Heeds.bind_of {f : α → Proc S M β} {x : Proc S M α} (hx : x.Heeds σ Waits E G)
    (hf : ∀ a, (E a → (f a).Twins σ E' G') ∧ (f a).Alerts σ Waits E' G')
    (hG : ∀ t, G t → G' (t.andThen (Proc.next f))) : (x >>= f).Heeds σ Waits E' G' := by
  have htwins := Proc.twins_next fun a => (hf a).1
  have halerts := Proc.alerts_next fun a => (hf a).2
  rw [Proc.bind_eq]
  exact ⟨fun m hm => (hx.1 m hm).andThen htwins hG,
    fun m hm => (hx.2 m hm).andThen htwins halerts hG⟩

theorem Proc.Heeds.bind {f : α → Proc S M β} {x : Proc S M α} (hx : x.Heeds σ Waits E G)
    (hf : ∀ a, (f a).Heeds σ Waits E' G') (hG : ∀ t, G t → G' (t.andThen (Proc.next f))) :
    (x >>= f).Heeds σ Waits E' G' :=
  hx.bind_of (fun a => ⟨fun _ => (hf a).1, (hf a).2⟩) hG

theorem Proc.Heeds.seq {f : α → Proc S M β} {x : Proc S M α}
    (hx : x.Heeds σ Waits E fun _ => False) (hf : ∀ a, (f a).Heeds σ Waits E' G') :
    (x >>= f).Heeds σ Waits E' G' :=
  hx.bind hf fun _ h => h.elim

theorem Proc.Alerts.pass (op : S.Op) {f : S.Ret op → Proc S M β} (hop : ¬ Waits op)
    (hf : ∀ a, (f a).Alerts σ Waits E' G') :
    ((Proc.call op : Proc S M (S.Ret op)) >>= f).Alerts σ Waits E' G' := by
  intro m hm
  refine ⟨hm, fun r m' hm' => ⟨fun hwaits => absurd hwaits hop, ?_⟩⟩
  cases r with
  | ok a => exact hf a m' hm'
  | error e => exact hm'

/-- A look at the signal: where it is up, the program has `G`, else it goes on. -/
theorem Proc.Heeds.look {f : M → Proc S M β} {p : Proc S M β} (hp : p.Alerts σ Waits E' G')
    (hcalm : ∀ m, σ.Calm m → f m = p)
    (hraise : ∀ m, σ.Calm m → G' (f (σ.raise m) (σ.raise m))) :
    (Proc.read >>= f).Heeds σ Waits E' G' := by
  refine ⟨fun m hm => .of (hraise m hm), fun m hm => ?_⟩
  show (f m m).Alert σ Waits E' G'
  rw [hcalm m hm]
  exact hp m hm

theorem Proc.Heeds.read {f : M → Proc S M β} (hraise : ∀ m, σ.Calm m → f (σ.raise m) = f m)
    (hf : ∀ m, σ.Calm m → (f m).Heeds σ Waits E' G') :
    (Proc.read >>= f).Heeds σ Waits E' G' := by
  refine ⟨fun m hm => ?_, fun m hm => (hf m hm).2 m hm⟩
  show (f m m).Twin σ E' G' (f (σ.raise m) (σ.raise m))
  rw [hraise m hm]
  exact (hf m hm).1 m hm

/-- What `handle` does with how `x` ended. -/
def Proc.caught (g : S.Err → Proc S M α) : Except S.Err α → Proc S M α
  | .ok a => Proc.ret a
  | .error e => g e

theorem Proc.handle_eq (x : Proc S M α) (g : S.Err → Proc S M α) :
    Proc.handle x g = fun m => (x m).andThen (Proc.caught g) := by
  funext m
  refine congrArg ((x m).andThen ·) (funext fun r => ?_)
  cases r with
  | ok a => rfl
  | error e => rfl

theorem Proc.Heeds.handle {x : Proc S M α} {g : S.Err → Proc S M α}
    (hx : x.Heeds σ Waits E G) (hg : ∀ e, (g e).Heeds σ Waits E G)
    (hG : ∀ t, G t → G (t.andThen (Proc.caught g))) : (Proc.handle x g).Heeds σ Waits E G := by
  have htwins (r : Except S.Err α) (hr : ∀ a, r = .ok a → E a) : (Proc.caught g r).Twins σ E G := by
    cases r with
    | ok a => exact Proc.Twins.ret (hr a rfl)
    | error e => exact (hg e).1
  have halerts (r : Except S.Err α) : (Proc.caught g r).Alerts σ Waits E G := by
    cases r with
    | ok a => exact fun m hm => hm
    | error e => exact (hg e).2
  rw [Proc.handle_eq]
  exact ⟨fun m hm => (hx.1 m hm).andThen htwins hG,
    fun m hm => (hx.2 m hm).andThen htwins halerts hG⟩

theorem Proc.Heeds.attempt {x : Proc S M α} {G' : Thread S M (Except S.Err α) → Prop}
    (hx : x.Heeds σ Waits E G) (hG : ∀ t, G t → G' (t.andThen Proc.ret)) :
    (Proc.attempt x).Heeds σ Waits (fun _ => True) G' :=
  ⟨fun m hm => (hx.1 m hm).andThen (fun _ _ => Proc.Twins.ret trivial) hG,
    fun m hm => (hx.2 m hm).andThen (fun _ _ => Proc.Twins.ret trivial)
      (fun _ => (Proc.Heeds.ret trivial).2) hG⟩

end Twins

end EventLoop
