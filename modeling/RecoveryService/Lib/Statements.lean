import RecoveryService.Lib.Programs

/-! # Statements sent to a database

A statement is answered, refused, or carried out without the sender learning of it: `Reply` says
which, and `submit` sends a statement that gets a given reply.  Below it are the tables of a database by
name, under the statements that create, drop, rename and change one: each is carried out as a whole or
not at all. -/

namespace Program

variable {σ ε α β : Type}

/-- What comes back for a statement that changes the database. -/
inductive Reply (ε : Type) where
  | done
  /-- An exception, and the statement was not carried out. -/
  | refused (e : ε)
  /-- An exception, but the statement was carried out. -/
  | lost (e : ε)

/-- The same reply with another exception. -/
def Reply.map {δ : Type} (f : ε → δ) : Reply ε → Reply δ
  | done => done
  | refused e => refused (f e)
  | lost e => lost (f e)

/-- Send a statement; `effect` is what it does, `none` where the database rejects it (`rejection`). -/
def submit (reply : Reply ε) (rejection : ε) (effect : σ → Option σ) : Program σ ε Unit := fun s =>
  match reply with
  | .done => (effect s).elim (.error rejection, s) (fun s' => (.ok (), s'))
  | .refused e => (.error e, s)
  | .lost e => (.error e, (effect s).getD s)

/-- Send a query; `failure` is what comes back in place of the answer. -/
def query (failure : Option ε) (answer : σ → Except ε α) : Program σ ε α := fun s =>
  match failure with
  | none => (answer s, s)
  | some e => (.error e, s)

/-! ### What programs do from a state -/

theorem bind_apply (x : Program σ ε α) (f : α → Program σ ε β) (s : σ) : (x >>= f) s = match x s with
      | (.ok a, s') => f a s'
      | (.error e, s') => (.error e, s') := rfl

variable {s s' : σ}
variable {f : α → Program σ ε β}

/-- A program that returns has returned from its first part. -/
theorem bind_returns {x : Program σ ε α} {b : β} :
    (x >>= f) s = (.ok b, s') ↔ ∃ a m, x s = (.ok a, m) ∧ f a m = (.ok b, s') := by
  rw [bind_apply]
  cases hx : x s with
  | mk r m =>
      cases r with
      | ok a | error e => simp

theorem query_returns {failure : Option ε} {answer : σ → Except ε α} {a : α} :
    query failure answer s = (.ok a, s') ↔ failure = none ∧ answer s = .ok a ∧ s' = s := by
  cases failure with
  | none => simp [query, eq_comm]
  | some e => simp [query]

theorem lift_returns {x : Except ε α} {a : α} : lift x s = (.ok a, s') ↔ x = .ok a ∧ s' = s := by
  simp [lift, eq_comm]

theorem update_returns {f : σ → σ} {u : Unit} : (update f : Program σ ε Unit) s = (.ok u, s') ↔ s' = f s := by
  simp [update, eq_comm]

theorem pure_returns {a b : α} : (pure a : Program σ ε α) s = (.ok b, s') ↔ b = a ∧ s' = s := by
  simp [pure, eq_comm]

variable {I : σ → Prop}

theorem keeps_query (failure : Option ε) (answer : σ → Except ε α) : Keeps I (query failure answer) := by
  constructor
  intro s hs
  cases failure with
  | some e => exact hs
  | none =>
      rw [query]
      cases answer s <;> exact hs

/-- Where the program ends, `I` holds. -/
theorem Keeps.ends_with {x : Program σ ε α} {r : Except ε α} (h : Keeps I x) (hs : I s) (hx : x s = (r, s')) : I s' := by
  have hends := h.ends s hs
  rw [hx] at hends
  cases r <;> exact hends

theorem keeps_lift_bind {x : Except ε α} (h : ∀ a, x = .ok a → Keeps I (f a)) : Keeps I (lift x >>= f) := by
  cases x with
  | ok a => exact h a rfl
  | error e => exact ⟨fun _ hs => hs⟩

variable {effect : σ → Option σ}

/-- Whatever comes back for a statement, it was carried out or not. -/
theorem keeps_submit (reply : Reply ε) (rejection : ε)
    (h : (∀ e, reply ≠ .refused e) → ∀ s s', I s → effect s = some s' → I s') :
    Keeps I (submit reply rejection effect) := by
  constructor
  intro s hs
  cases reply with
  | refused e => exact hs
  | done | lost e =>
      rw [submit]
      cases he : effect s with
      | none => exact hs
      | some s' => exact h nofun s s' hs he

@[simp] theorem update_apply (f : σ → σ) (s : σ) : (update f : Program σ ε Unit) s = (.ok (), f s) := rfl

@[simp] theorem pure_apply (a : α) (s : σ) : (pure a : Program σ ε α) s = (.ok a, s) := rfl

@[simp] theorem raise_apply (e : ε) (s : σ) : (raise e : Program σ ε α) s = (.error e, s) := rfl

@[simp] theorem lift_apply (x : Except ε α) (s : σ) : lift x s = (x, s) := rfl

@[simp] theorem state_apply (s : σ) : (state : Program σ ε σ) s = (.ok s, s) := rfl

@[simp] theorem query_none (answer : σ → Except ε α) (s : σ) : query none answer s = (answer s, s) := rfl

@[simp] theorem query_some (e : ε) (answer : σ → Except ε α) (s : σ) :
    query (some e) answer s = (.error e, s) := rfl

@[simp] theorem submit_done (rejection : ε) (effect : σ → Option σ) (s : σ) : submit .done rejection effect s =
      (effect s).elim (.error rejection, s) (fun s' => (.ok (), s')) := rfl

@[simp] theorem submit_refused (e rejection : ε) (effect : σ → Option σ) (s : σ) :
    submit (.refused e) rejection effect s = (.error e, s) := rfl

@[simp] theorem submit_lost (e rejection : ε) (effect : σ → Option σ) (s : σ) :
    submit (.lost e) rejection effect s = (.error e, (effect s).getD s) := rfl

theorem attempt_apply (x : Program σ ε α) (handler : ε → Option (Program σ ε α)) (s : σ) :
    attempt x handler s = match x s with
      | (.ok a, s') => (.ok a, s')
      | (.error e, s') => (handler e).elim (.error e, s') (fun h => h s') := rfl

section rules

variable {P : σ → Prop} {E : ε → σ → Prop}
variable {Q : α → σ → Prop}

theorem spec_lift_bind {x : Except ε β} {f : β → Program σ ε α} (h : ∀ a, x = .ok a → Spec P (f a) Q E)
    (hraised : ∀ e s, P s → E e s) : Spec P (lift x >>= f) Q E := by
  cases x with
  | ok a => exact ⟨fun s hs => (h a rfl).ends s hs⟩
  | error e => exact ⟨fun s hs => hraised e s hs⟩

/-- A program may be looked at from each of its first states alone. -/
theorem spec_start {x : Program σ ε α} (h : ∀ a, P a → Spec (fun s => s = a) x Q E) : Spec P x Q E :=
  ⟨fun s hs => (h s hs).ends s rfl⟩

/-- The state that was read is the one the rest starts from. -/
theorem spec_read {Q : β → σ → Prop} {f : σ → Program σ ε β}
    (h : ∀ a, P a → Spec (fun s => s = a) (f a) Q E) : Spec P (state >>= f) Q E :=
  ⟨fun s hs => (h s hs).ends s rfl⟩

variable {Q : Unit → σ → Prop}

theorem spec_submit {reply : Reply ε} {rejection : ε} {effect : σ → Option σ}
    (hdone : ∀ s s', P s → effect s = some s' → Q () s') (hnot : ∀ e s, P s → E e s)
    (hlost : ∀ e s s', P s → effect s = some s' → E e s') : Spec P (submit reply rejection effect) Q E := by
  constructor
  intro s hs
  cases reply with
  | refused e => exact hnot e s hs
  | done =>
      rw [submit]
      cases he : effect s with
      | none => exact hnot rejection s hs
      | some s' => exact hdone s s' hs he
  | lost e =>
      rw [submit]
      cases he : effect s with
      | none => exact hnot e s hs
      | some s' => exact hlost e s s' hs he

theorem spec_onlyIf {c : Prop} [Decidable c] {x : Program σ ε Unit} (h : c → Spec P x Q E)
    (hnot : ¬ c → ∀ s, P s → Q () s) : Spec P (onlyIf c x) Q E := by
  by_cases hc : c
  · rw [onlyIf, if_pos hc]
    exact h hc
  · rw [onlyIf, if_neg hc]
    exact spec_pure (hnot hc)

end rules

/-! ### Loops of statements -/

/-- A loop returns when every turn does; `g` is what a turn leaves, from the states with `I`. -/
theorem forM_returns {f : α → Program σ ε Unit} {p : α → Prop} {g : α → σ → σ} {l : List α}
    (hturn : ∀ a ∈ l, ∀ s s', I s → (f a s = (.ok (), s') ↔ p a ∧ s' = g a s))
    (hkeep : ∀ a ∈ l, ∀ s, I s → I (g a s)) {u : Unit} (hs : I s) :
    l.forM f s = (.ok u, s') ↔ (∀ a ∈ l, p a) ∧ s' = l.foldl (fun s a => g a s) s := by
  induction l generalizing s with
  | nil =>
      rw [show (List.forM [] f) = (pure () : Program σ ε Unit) from rfl, pure_returns]
      simp
  | cons a l ih =>
      obtain ⟨ha, hl⟩ := List.forall_mem_cons.mp hturn
      obtain ⟨hka, hkl⟩ := List.forall_mem_cons.mp hkeep
      rw [show (List.forM (a :: l) f) = (f a >>= fun _ => l.forM f) from rfl, bind_returns,
        List.forall_mem_cons, List.foldl_cons]
      constructor
      · rintro ⟨u, m, hf, hrest⟩
        obtain ⟨hok, rfl⟩ := (ha s m hs).mp hf
        obtain ⟨hall, hend⟩ := (ih hl hkl (hka s hs)).mp hrest
        exact ⟨⟨hok, hall⟩, hend⟩
      · rintro ⟨⟨hok, hall⟩, hend⟩
        exact ⟨(), g a s, (ha s _ hs).mpr ⟨hok, rfl⟩, (ih hl hkl (hka s hs)).mpr ⟨hall, hend⟩⟩

/-- A statement returns when it is answered and not rejected. -/
theorem submit_returns {reply : Reply ε} {rejection : ε} {u : Unit} :
    submit reply rejection effect s = (.ok u, s') ↔ reply = .done ∧ effect s = some s' := by
  cases reply with
  | refused e | lost e => simp
  | done => cases he : effect s <;> simp [he]

end Program

/-! ### Tables by name -/

namespace Tables

variable {N T : Type} [DecidableEq N]

/-- The tables of a database. -/
abbrev Catalog (N T : Type) := N → Option T

def create (c : Catalog N T) (name : N) (t : T) : Option (Catalog N T) :=
  if c name = none then some (Function.update c name (some t)) else none

def drop (c : Catalog N T) (name : N) : Option (Catalog N T) :=
  if c name = none then none else some (Function.update c name none)

/-- The table under `a` gets the free name `b`. -/
def rename (c : Catalog N T) (a b : N) : Option (Catalog N T) :=
  match c a, c b with
  | some t, none => some (Function.update (Function.update c a none) b (some t))
  | _, _ => none

def alter (c : Catalog N T) (name : N) (f : T → T) : Option (Catalog N T) :=
  (c name).map (fun t => Function.update c name (some (f t)))

variable {c : Catalog N T} {a b : N} {t : T}

theorem rename_eq (ha : c a = some t) (hb : c b = none) :
    rename c a b = some (Function.update (Function.update c a none) b (some t)) := by
  unfold rename
  rw [ha, hb]

theorem alter_eq {f : T → T} (h : c a = some t) : alter c a f = some (Function.update c a (some (f t))) := by
  unfold alter
  rw [h]
  rfl

theorem create_eq (h : c a = none) : create c a t = some (Function.update c a (some t)) := if_pos h

end Tables
