import AtomicMemory.Lib.Machine
import Mathlib.Data.List.Perm.Basic

-- Calls that hold one lock for their whole body, made from any number of threads, among others
-- that look at the shared state without the lock. Whatever the interleaving, the calls take effect
-- one after the other, in the order in which they end.

/-- What the calls share at first, where the body of a call begins, and one step of a body: it
goes on, or it releases the lock and the call returns. -/
structure Monitor (σ κ β ρ : Type*) where
  init : σ
  enter : κ → β
  step : σ → β → σ × (β ⊕ ρ)

namespace Monitor

inductive Phase (κ β ρ : Type*)
  | waiting (call : κ)
  | inside (call : κ) (body : β)
  | ended (call : κ) (result : ρ)

/-- The calls are numbered as they are made; `holder` is the one that has the lock. -/
structure State (σ κ β ρ τ : Type*) where
  shared : σ
  holder : Option ℕ
  calls : List (Phase κ β ρ)
  others : τ

inductive Label (κ ℓ : Type*)
  | call (call : κ)
  | acquire (i : ℕ)
  | run (i : ℕ)
  | look (label : ℓ)

variable {σ κ β ρ τ ℓ : Type*} (M : Monitor σ κ β ρ)

/-- `look` is one step of the others, who only read what the calls share. -/
def next (look : σ → τ → ℓ → Option τ) (s : State σ κ β ρ τ) :
    Label κ ℓ → Option (State σ κ β ρ τ)
  | .call call => some { s with calls := s.calls ++ [.waiting call] }
  | .acquire i =>
    match s.holder, s.calls[i]? with
    | none, some (.waiting call) =>
      some { s with holder := some i, calls := s.calls.set i (.inside call (M.enter call)) }
    | _, _ => none
  | .run i =>
    match s.calls[i]? with
    | some (.inside call body) =>
      match M.step s.shared body with
      | (shared, .inl body) => some { s with shared, calls := s.calls.set i (.inside call body) }
      | (shared, .inr result) =>
        some { s with shared, holder := none, calls := s.calls.set i (.ended call result) }
    | _ => none
  | .look label => (look s.shared s.others label).map fun others => { s with others }

def machine (look : σ → τ → ℓ → Option τ) (others : τ) :
    Machine (State σ κ β ρ τ) (Label κ ℓ) :=
  ⟨⟨M.init, none, [], others⟩, M.next look⟩

def Goes (x y : σ × β) : Prop := M.step x.1 x.2 = (y.1, .inl y.2)

def Leads : σ × β → σ × β → Prop := Relation.ReflTransGen M.Goes

def Ends (x : σ × β) (shared : σ) (result : ρ) : Prop :=
  ∃ y, M.Leads x y ∧ M.step y.1 y.2 = (shared, .inr result)

def Implements (run : σ → κ → σ × ρ) : Prop :=
  ∀ shared call, M.Ends (shared, M.enter call) (run shared call).1 (run shared call).2

inductive Serial (run : σ → κ → σ × ρ) (init : σ) : List (κ × ρ) → σ → Prop
  | start : Serial run init [] init
  | next {order : List (κ × ρ)} {s s' : σ} {call : κ} {result : ρ} (h : Serial run init order s)
      (hrun : run s call = (s', result)) : Serial run init ((call, result) :: order) s'

variable {M}

theorem goes_rightUnique : Relator.RightUnique M.Goes := by
  intro x y z hy hz
  have h := Eq.trans (Eq.symm hy) hz
  cases y
  cases z
  cases h
  rfl

theorem Ends.of_leads {x y : σ × β} {shared : σ} {result : ρ} (h : M.Leads x y)
    (hends : M.Ends y shared result) : M.Ends x shared result := by
  obtain ⟨z, hz, hstep⟩ := hends
  exact ⟨z, Relation.ReflTransGen.trans h hz, hstep⟩

theorem Ends.step {x : σ × β} {next shared : σ} {body : β} {result : ρ}
    (h : M.step x.1 x.2 = (next, .inl body)) (hends : M.Ends (next, body) shared result) :
    M.Ends x shared result := by
  have hgoes : M.Goes x (next, body) := h
  exact hends.of_leads (.single hgoes)

theorem eq_of_leads {x y : σ × β} {shared : σ} {result : ρ}
    (hstep : M.step x.1 x.2 = (shared, .inr result)) (h : M.Leads x y) : y = x := by
  cases Relation.ReflTransGen.cases_head h with
  | inl heq => exact heq.symm
  | inr hgoes =>
    obtain ⟨z, hz, -⟩ := hgoes
    have hboth := Eq.trans (Eq.symm hstep) hz
    cases hboth

theorem Ends.unique {x : σ × β} {shared shared' : σ} {result result' : ρ}
    (h : M.Ends x shared result) (h' : M.Ends x shared' result') :
    (shared, result) = (shared', result') := by
  obtain ⟨y, hy, hstep⟩ := h
  obtain ⟨z, hz, hstep'⟩ := h'
  have hsame : z = y := by
    cases Relation.ReflTransGen.total_of_right_unique goes_rightUnique hy hz with
    | inl hlead => exact eq_of_leads hstep hlead
    | inr hlead => exact (eq_of_leads hstep' hlead).symm
  rw [hsame, hstep] at hstep'
  cases hstep'
  rfl

theorem Implements.eq_of_leads {run : σ → κ → σ × ρ} (himpl : M.Implements run) {base : σ}
    {call : κ} {x : σ × β} {shared : σ} {result : ρ} (h : M.Leads (base, M.enter call) x)
    (hends : M.Ends x shared result) : run base call = (shared, result) :=
  (himpl base call).unique (hends.of_leads h)

inductive Stepped (M : Monitor σ κ β ρ) (look : σ → τ → ℓ → Option τ) (s : State σ κ β ρ τ) :
    Label κ ℓ → State σ κ β ρ τ → Prop
  | called (call : κ) : Stepped M look s (.call call) { s with calls := s.calls ++ [.waiting call] }
  | acquired (i : ℕ) (call : κ) (hfree : s.holder = none) (hcall : s.calls[i]? = some (.waiting call)) :
    Stepped M look s (.acquire i)
      { s with holder := some i, calls := s.calls.set i (.inside call (M.enter call)) }
  | went (i : ℕ) (call : κ) (body body' : β) (shared : σ)
      (hcall : s.calls[i]? = some (.inside call body))
      (hstep : M.step s.shared body = (shared, .inl body')) :
    Stepped M look s (.run i) { s with shared, calls := s.calls.set i (.inside call body') }
  | ended (i : ℕ) (call : κ) (body : β) (shared : σ) (result : ρ)
      (hcall : s.calls[i]? = some (.inside call body))
      (hstep : M.step s.shared body = (shared, .inr result)) :
    Stepped M look s (.run i)
      { s with shared, holder := none, calls := s.calls.set i (.ended call result) }
  | looked (label : ℓ) (others : τ) (hlook : look s.shared s.others label = some others) :
    Stepped M look s (.look label) { s with others }

theorem stepped {look : σ → τ → ℓ → Option τ} {s s' : State σ κ β ρ τ} {l : Label κ ℓ}
    (h : M.next look s l = some s') : Stepped M look s l s' := by
  cases l with
  | call call =>
    cases h
    exact .called call
  | acquire i =>
    unfold next at h
    dsimp only at h
    split at h
    · rename_i call hfree hcall
      cases h
      exact .acquired i call hfree hcall
    · cases h
  | run i =>
    unfold next at h
    dsimp only at h
    split at h
    · rename_i call body hcall
      split at h
      · rename_i shared body' hstep
        cases h
        exact .went i call body body' shared hcall hstep
      · rename_i shared result hstep
        cases h
        exact .ended i call body shared result hcall hstep
    · cases h
  | look label =>
    obtain ⟨others, hlook, rfl⟩ := Option.map_eq_some_iff.mp h
    exact .looked label others hlook

structure Locked (s : State σ κ β ρ τ) : Prop where
  holds : ∀ i, s.holder = some i → ∃ call body, s.calls[i]? = some (.inside call body)
  only : ∀ i call body, s.calls[i]? = some (.inside call body) → s.holder = some i

theorem getElem?_set_some {α : Type*} {xs : List α} {i j : ℕ} {x y : α}
    (h : (xs.set i x)[j]? = some y) : i = j ∧ y = x ∨ i ≠ j ∧ xs[j]? = some y := by
  rw [List.getElem?_set] at h
  split at h
  · rename_i hij
    split at h
    · cases h
      exact .inl ⟨hij, rfl⟩
    · cases h
  · rename_i hij
    exact .inr ⟨hij, h⟩

theorem getElem?_set_of_some {α : Type*} {xs : List α} {i : ℕ} {x : α} (y : α)
    (h : xs[i]? = some x) : (xs.set i y)[i]? = some y := by
  rw [List.getElem?_set_self (List.getElem?_eq_some_iff.mp h).1]

theorem locked_stepped {look : σ → τ → ℓ → Option τ} {s s' : State σ κ β ρ τ} {l : Label κ ℓ}
    (hs : Locked s) (h : Stepped M look s l s') : Locked s' := by
  cases h with
  | called call =>
    constructor
    · intro i hi
      obtain ⟨call', body, hcall⟩ := hs.holds i hi
      exact ⟨call', body, List.getElem?_append_left (List.getElem?_eq_some_iff.mp hcall).1 ▸ hcall⟩
    · intro i call' body hcall
      rw [List.getElem?_append] at hcall
      split at hcall
      · exact hs.only i call' body hcall
      · have hmem := List.mem_of_getElem? hcall
        cases List.mem_singleton.mp hmem
  | acquired i call hfree hcall =>
    constructor
    · intro j hj
      cases hj
      exact ⟨call, M.enter call, getElem?_set_of_some _ hcall⟩
    · intro j call' body hinside
      cases getElem?_set_some hinside with
      | inl heq => exact congrArg some heq.1
      | inr hne =>
        have hheld := hs.only j call' body hne.2
        rw [hfree] at hheld
        cases hheld
  | went i call body body' shared hcall hstep =>
    have hheld := hs.only i call body hcall
    constructor
    · intro j hj
      rw [show s.holder = some i from hheld] at hj
      cases hj
      exact ⟨call, body', getElem?_set_of_some _ hcall⟩
    · intro j call' body'' hinside
      cases getElem?_set_some hinside with
      | inl heq => exact heq.1 ▸ hheld
      | inr hne => exact hs.only j call' body'' hne.2
  | ended i call body shared result hcall hstep =>
    have hheld := hs.only i call body hcall
    constructor
    · intro j hj
      cases hj
    · intro j call' body' hinside
      cases getElem?_set_some hinside with
      | inl heq => cases heq.2
      | inr hne =>
        have hother := hs.only j call' body' hne.2
        rw [hheld] at hother
        cases hother
        exact absurd rfl hne.1
  | looked label others hlook => exact ⟨hs.holds, hs.only⟩

/-- While a call has not ended, it or the holder of the lock can take a step. -/
theorem Locked.progress (look : σ → τ → ℓ → Option τ) {s : State σ κ β ρ τ} (hs : Locked s)
    {i : ℕ} {phase : Phase κ β ρ} (hcall : s.calls[i]? = some phase)
    (hphase : ∀ call result, phase ≠ .ended call result) :
    ∃ l s', (l = .acquire i ∨ ∃ j, s.holder = some j ∧ l = .run j) ∧ M.next look s l = some s' := by
  have hrun {j : ℕ} {call : κ} {body : β} (h : s.calls[j]? = some (.inside call body)) :
      ∃ s', M.next look s (.run j) = some s' := by
    unfold next
    simp only [h]
    split <;> exact ⟨_, rfl⟩
  cases hholder : s.holder with
  | some j =>
    obtain ⟨call, body, hinside⟩ := hs.holds j hholder
    obtain ⟨s', hs'⟩ := hrun hinside
    exact ⟨.run j, s', .inr ⟨j, rfl, rfl⟩, hs'⟩
  | none =>
    cases phase with
    | waiting call =>
      have hnext : M.next look s (.acquire i) = some { s with
          holder := some i, calls := s.calls.set i (.inside call (M.enter call)) } := by
        unfold next
        simp only [hholder, hcall]
      exact ⟨.acquire i, _, .inl rfl, hnext⟩
    | inside call body =>
      have hheld := hs.only i call body hcall
      -- nobody is inside while the lock is free
      rw [hholder] at hheld
      cases hheld
    | ended call result => exact absurd rfl (hphase call result)

def ending (M : Monitor σ κ β ρ) (s : State σ κ β ρ τ) : Label κ ℓ → Option (κ × ρ)
  | .run i =>
    match s.calls[i]? with
    | some (.inside call body) => (M.step s.shared body).2.getRight?.map fun result => (call, result)
    | _ => none
  | _ => none

def order (M : Monitor σ κ β ρ) (history : List (State σ κ β ρ τ × Label κ ℓ)) : List (κ × ρ) :=
  history.filterMap fun p => ending M p.1 p.2

def ended (calls : List (Phase κ β ρ)) : List (κ × ρ) :=
  calls.filterMap fun
    | .ended call result => some (call, result)
    | _ => none

/-- Since `base` only the holder of the lock has changed what is shared. -/
def Since (M : Monitor σ κ β ρ) (base : σ) (s : State σ κ β ρ τ) : Prop :=
  match s.holder with
  | none => s.shared = base
  | some i => ∃ call body, s.calls[i]? = some (.inside call body) ∧
      M.Leads (base, M.enter call) (s.shared, body)

theorem set_split {α : Type*} {xs : List α} {i : ℕ} {x : α} (y : α) (h : xs[i]? = some x) :
    ∃ before after, xs = before ++ x :: after ∧ xs.set i y = before ++ y :: after := by
  obtain ⟨hi, rfl⟩ := List.getElem?_eq_some_iff.mp h
  refine ⟨xs.take i, xs.drop (i + 1), ?_, List.set_eq_take_append_cons_drop.trans (if_pos hi)⟩
  rw [List.getElem_cons_drop, List.take_append_drop]

theorem ended_set_inside {calls : List (Phase κ β ρ)} {i : ℕ} {phase : Phase κ β ρ} {call : κ}
    {body : β} (h : calls[i]? = some phase) (hphase : ∀ call result, phase ≠ .ended call result) :
    ended (calls.set i (.inside call body)) = ended calls := by
  obtain ⟨before, after, hsplit, hset⟩ := set_split (.inside call body) h
  rw [hset, hsplit]
  unfold ended
  rw [List.filterMap_append, List.filterMap_append]
  cases phase with
  | ended call result => exact absurd rfl (hphase call result)
  | _ => rfl

theorem ended_set_ended {calls : List (Phase κ β ρ)} {i : ℕ} {call : κ} {body : β} {result : ρ}
    (h : calls[i]? = some (.inside call body)) :
    (ended (calls.set i (.ended call result))).Perm ((call, result) :: ended calls) := by
  obtain ⟨before, after, hsplit, hset⟩ := set_split (.ended call result) h
  rw [hset, hsplit]
  unfold ended
  rw [List.filterMap_append, List.filterMap_append]
  exact List.perm_middle

/-- What holds after every execution: the calls that have ended are complete calls one after the
other, in this order, and only the holder of the lock has gone beyond them. -/
structure Linear (M : Monitor σ κ β ρ) (run : σ → κ → σ × ρ)
    (history : List (State σ κ β ρ τ × Label κ ℓ)) (s : State σ κ β ρ τ) : Prop where
  locked : Locked s
  ended : (ended s.calls).Perm (order M history)
  serial : ∃ base, Serial run M.init (order M history) base ∧ Since M base s

section

variable {run : σ → κ → σ × ρ} {history : List (State σ κ β ρ τ × Label κ ℓ)}
  {s s' : State σ κ β ρ τ} {l : Label κ ℓ}

theorem order_cons_none (h : ending M s l = none) :
    order M ((s, l) :: history) = order M history := List.filterMap_cons_none h

theorem order_cons_some {p : κ × ρ} (h : ending M s l = some p) :
    order M ((s, l) :: history) = p :: order M history := List.filterMap_cons_some h

theorem Linear.goesOn (hs : Linear M run history s) (hlocked : Locked s')
    (hending : ending M s l = none) (hended : Monitor.ended s'.calls = Monitor.ended s.calls)
    (hsince : ∀ base, Since M base s → Since M base s') : Linear M run ((s, l) :: history) s' := by
  refine ⟨hlocked, ?_, ?_⟩
  · rw [order_cons_none hending, hended]
    exact hs.ended
  · rw [order_cons_none hending]
    obtain ⟨base, hserial, hbase⟩ := hs.serial
    exact ⟨base, hserial, hsince base hbase⟩

theorem Since.shared_eq {base : σ} (h : Since M base s) (hfree : s.holder = none) :
    s.shared = base := by
  unfold Since at h
  rw [hfree] at h
  exact h

theorem Since.leads {base : σ} {i : ℕ} {call : κ} {body : β} (h : Since M base s)
    (hholder : s.holder = some i) (hcall : s.calls[i]? = some (.inside call body)) :
    M.Leads (base, M.enter call) (s.shared, body) := by
  unfold Since at h
  rw [hholder] at h
  obtain ⟨call', body', hcall', hlead⟩ := h
  rw [hcall] at hcall'
  cases hcall'
  exact hlead

theorem Linear.stepped (himpl : M.Implements run) {look : σ → τ → ℓ → Option τ}
    (hs : Linear M run history s) (h : Stepped M look s l s') :
    Linear M run ((s, l) :: history) s' := by
  have hlocked := locked_stepped hs.locked h
  cases h with
  | called call =>
    apply hs.goesOn hlocked rfl
    · rw [Monitor.ended, List.filterMap_append]
      exact List.append_nil _
    · intro base hbase
      cases hholder : s.holder with
      | none =>
        have hshared := hbase.shared_eq hholder
        unfold Since
        exact hshared
      | some i =>
        obtain ⟨call', body, hcall⟩ := hs.locked.holds i hholder
        have hkept : (s.calls ++ [.waiting call])[i]? = some (.inside call' body) :=
          (List.getElem?_append_left (List.getElem?_eq_some_iff.mp hcall).1).trans hcall
        have hlead := hbase.leads hholder hcall
        unfold Since
        exact ⟨call', body, hkept, hlead⟩
  | acquired i call hfree hcall =>
    apply hs.goesOn hlocked rfl
    · exact ended_set_inside hcall fun _ _ h => by cases h
    · intro base hbase
      have hshared := hbase.shared_eq hfree
      unfold Since
      -- the body begins where the last complete call has left off
      refine ⟨call, M.enter call, getElem?_set_of_some _ hcall, ?_⟩
      rw [← hshared]
      exact .refl
  | went i call body body' shared hcall hstep =>
    have hholder := hs.locked.only i call body hcall
    apply hs.goesOn hlocked
    · unfold ending
      simp only [hcall, hstep]
      rfl
    · exact ended_set_inside hcall fun _ _ h => by cases h
    · intro base hbase
      have hlead := hbase.leads hholder hcall
      unfold Since
      simp only [hholder]
      exact ⟨call, body', getElem?_set_of_some _ hcall, hlead.tail hstep⟩
  | ended i call body shared result hcall hstep =>
    have hholder := hs.locked.only i call body hcall
    have hending : ending (ℓ := ℓ) M s (.run i) = some (call, result) := by
      unfold ending
      simp only [hcall, hstep]
      rfl
    refine ⟨hlocked, ?_, ?_⟩
    · rw [order_cons_some hending]
      exact (ended_set_ended hcall).trans (hs.ended.cons _)
    · rw [order_cons_some hending]
      obtain ⟨base, hserial, hbase⟩ := hs.serial
      have hlead := hbase.leads hholder hcall
      -- all that was done since `base` is the body of this call, from its beginning to its end
      refine ⟨shared, hserial.next ?_, rfl⟩
      exact himpl.eq_of_leads hlead ⟨_, .refl, hstep⟩
  | looked label others hlook =>
    apply hs.goesOn hlocked rfl rfl
    intro base hbase
    exact hbase

theorem linear (himpl : M.Implements run) {look : σ → τ → ℓ → Option τ} {others : τ}
    (h : (M.machine look others).Execution history s) : Linear M run history s := by
  induction h with
  | start =>
    refine ⟨⟨?_, ?_⟩, .nil, M.init, .start, rfl⟩
    · intro i h
      cases h
    · intro i call body h
      cases h
  | next _ hstep ih => exact ih.stepped himpl (stepped hstep)

end

end Monitor
