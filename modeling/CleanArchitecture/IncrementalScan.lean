import Mathlib.Data.List.Basic

/-!
# Incremental scanners

A scanner consumes one symbol at a time and answers every symbol with a verdict.
Some verdicts stop the scan; all others ask for the next symbol.  The input may
arrive in pieces, so the results below say how a scan of a concatenation splits,
which words are accepted, and which inputs are still prefixes of accepted words.
-/

namespace CleanArchitecture

/-- A one-symbol-at-a-time machine.  `idle` is what a scan answers when the
input ends before a stopping verdict. -/
structure Scanner (σ β ρ : Type*) where
  step : σ → β → ρ × σ
  stops : ρ → Bool
  idle : ρ
  idle_continues : stops idle = false

/-- The verdict of a scan, the state it leaves and the number of symbols it
consumed. -/
structure ScanResult (σ ρ : Type*) where
  verdict : ρ
  state : σ
  consumed : Nat

namespace Scanner

variable {σ β ρ : Type*} (M : Scanner σ β ρ)

def scan : σ → List β → ScanResult σ ρ
  | s, [] => ⟨M.idle, s, 0⟩
  | s, b :: bs =>
      match M.step s b with
      | (r, s') =>
          if M.stops r then ⟨r, s', 1⟩
          else
            let rest := scan s' bs
            ⟨rest.verdict, rest.state, rest.consumed + 1⟩

/-- The state after consuming every symbol of a list, when none of them stops
the scan. -/
def advance : σ → List β → Option σ
  | s, [] => some s
  | s, b :: bs =>
      match M.step s b with
      | (r, s') => if M.stops r then none else advance s' bs

/-- A word is accepted when the scan consumes all of it and its last symbol
gets the accepting verdict. -/
def Accepts (accept : ρ) (s : σ) (word : List β) : Prop :=
  (M.scan s word).verdict = accept ∧ (M.scan s word).consumed = word.length

/-- Every configuration the scanner can advance to still has an accepted
continuation. -/
def Live (accept : ρ) (start : σ) : Prop :=
  ∀ word s, M.advance start word = some s → ∃ rest, M.Accepts accept s rest

variable {M}

theorem advance_cons {s s' : σ} {b : β} {r : ρ} (stepEq : M.step s b = (r, s'))
    (continues : M.stops r = false) (bs : List β) :
    M.advance s (b :: bs) = M.advance s' bs := by
  simp [advance, stepEq, continues]

theorem advance_append (s : σ) (xs ys : List β) :
    M.advance s (xs ++ ys) = (M.advance s xs).bind (fun s' => M.advance s' ys) := by
  induction xs generalizing s with
  | nil => rfl
  | cons x xs ih =>
      simp only [List.cons_append, advance]
      cases M.stops (M.step s x).1 with
      | true => rfl
      | false => exact ih _

theorem advance_append_of {s s' : σ} {xs : List β} (first : M.advance s xs = some s')
    (ys : List β) : M.advance s (xs ++ ys) = M.advance s' ys := by
  rw [advance_append, first, Option.bind_some]

theorem advance_trans {s s' s'' : σ} {xs ys : List β} (first : M.advance s xs = some s')
    (second : M.advance s' ys = some s'') : M.advance s (xs ++ ys) = some s'' := by
  rw [advance_append_of first, second]

theorem advance_singleton {s s' : σ} {b : β} {r : ρ} (stepEq : M.step s b = (r, s'))
    (continues : M.stops r = false) : M.advance s [b] = some s' := by
  rw [advance_cons stepEq continues]
  rfl

/-- Symbols that only extend an accumulated word are consumed one after the
other. -/
theorem advance_accumulate (f : List β → σ) (allowed : β → Prop)
    (extends_by : ∀ word b, allowed b →
      ∃ r, M.step (f word) b = (r, f (word ++ [b])) ∧ M.stops r = false)
    (word : List β) {bs : List β} (all : ∀ b ∈ bs, allowed b) :
    M.advance (f word) bs = some (f (word ++ bs)) := by
  induction bs generalizing word with
  | nil => simp [advance]
  | cons b bs ih =>
      obtain ⟨r, stepEq, continues⟩ := extends_by word b (all b (by simp))
      rw [advance_cons stepEq continues, ih (word ++ [b]) (fun c member => all c (by simp [member]))]
      simp

/-- A relation between states and consumed words that every continuing step
keeps holds after any advance. -/
theorem advance_invariant (inv : σ → List β → Prop)
    (keeps : ∀ s word b r s', inv s word → M.step s b = (r, s') → M.stops r = false →
      inv s' (word ++ [b]))
    {s s' : σ} {word bs : List β} (holds : inv s word) (advanced : M.advance s bs = some s') :
    inv s' (word ++ bs) := by
  induction bs generalizing s word with
  | nil =>
      obtain rfl : s = s' := Option.some.inj advanced
      simpa using holds
  | cons b bs ih =>
      rcases stepEq : M.step s b with ⟨r, next⟩
      cases continues : M.stops r with
      | true => simp [advance, stepEq, continues] at advanced
      | false =>
          rw [advance_cons stepEq continues] at advanced
          simpa using ih (keeps s word b r next holds stepEq continues) advanced

theorem scan_of_advance {s s' : σ} {bs : List β} (advanced : M.advance s bs = some s') :
    M.scan s bs = ⟨M.idle, s', bs.length⟩ := by
  induction bs generalizing s with
  | nil =>
      obtain rfl : s = s' := Option.some.inj advanced
      rfl
  | cons b bs ih =>
      rcases stepEq : M.step s b with ⟨r, next⟩
      cases continues : M.stops r with
      | true => simp [advance, stepEq, continues] at advanced
      | false =>
          rw [advance_cons stepEq continues] at advanced
          simp [scan, stepEq, continues, ih advanced]

/-- Scanning resumes after an advance as if the first part had never been cut
off. -/
theorem scan_append_of_advance {s s' : σ} {xs : List β}
    (advanced : M.advance s xs = some s') (ys : List β) :
    M.scan s (xs ++ ys) =
      ⟨(M.scan s' ys).verdict, (M.scan s' ys).state, xs.length + (M.scan s' ys).consumed⟩ := by
  induction xs generalizing s with
  | nil =>
      obtain rfl : s = s' := Option.some.inj advanced
      simp
  | cons x xs ih =>
      rcases stepEq : M.step s x with ⟨r, next⟩
      cases continues : M.stops r with
      | true => simp [advance, stepEq, continues] at advanced
      | false =>
          rw [advance_cons stepEq continues] at advanced
          simp only [List.cons_append, scan, stepEq, continues, ih advanced]
          simp only [Bool.false_eq_true, ↓reduceIte, List.length_cons, ScanResult.mk.injEq,
            true_and]
          omega

/-- Either the whole input is consumed without a stop, or a first stopping
symbol splits it. -/
theorem scan_cases (s : σ) (bs : List β) :
    (∃ s', M.advance s bs = some s' ∧ M.scan s bs = ⟨M.idle, s', bs.length⟩) ∨
      ∃ xs b ys s₁ r s₂, bs = xs ++ b :: ys ∧ M.advance s xs = some s₁ ∧
        M.step s₁ b = (r, s₂) ∧ M.stops r = true ∧
        M.scan s bs = ⟨r, s₂, xs.length + 1⟩ := by
  induction bs generalizing s with
  | nil => exact Or.inl ⟨s, rfl, rfl⟩
  | cons b bs ih =>
      rcases stepEq : M.step s b with ⟨r, next⟩
      cases stopped : M.stops r with
      | true =>
          exact Or.inr ⟨[], b, bs, s, r, next, rfl, rfl, stepEq, stopped,
            by simp [scan, stepEq, stopped]⟩
      | false =>
          have first := advance_singleton stepEq stopped
          rcases ih next with ⟨s', advanced, -⟩ | ⟨xs, c, ys, s₁, r', s₂, rfl, advanced, last,
            stops, scanned⟩
          · have whole : M.advance s (b :: bs) = some s' := by
              rw [advance_cons stepEq stopped, advanced]
            exact Or.inl ⟨s', whole, scan_of_advance whole⟩
          · refine Or.inr ⟨b :: xs, c, ys, s₁, r', s₂, rfl, ?_, last, stops, ?_⟩
            · rw [advance_cons stepEq stopped, advanced]
            · simp [scan, stepEq, stopped, scanned]

theorem scan_consumed_le (s : σ) (bs : List β) : (M.scan s bs).consumed ≤ bs.length := by
  rcases M.scan_cases s bs with ⟨s', -, scanned⟩ | ⟨xs, b, ys, s₁, r, s₂, rfl, -, -, -, scanned⟩
  · simp [scanned]
  · simp [scanned]

theorem scan_invariant (inv : σ → Prop) (keeps : ∀ s b, inv s → inv (M.step s b).2)
    {s : σ} (holds : inv s) (bs : List β) : inv (M.scan s bs).state := by
  induction bs generalizing s with
  | nil => exact holds
  | cons b bs ih =>
      have next := keeps s b holds
      simp only [scan]
      cases M.stops (M.step s b).1 with
      | true => exact next
      | false => exact ih next

/-- A measure that one symbol increases by at most one is bounded by the symbols consumed. -/
theorem scan_measure_le (measure : σ → Nat)
    (grows : ∀ s b, measure (M.step s b).2 ≤ measure s + 1) (s : σ) (bs : List β) :
    measure (M.scan s bs).state ≤ measure s + (M.scan s bs).consumed := by
  induction bs generalizing s with
  | nil => exact Nat.le_refl _
  | cons b bs ih =>
      have first := grows s b
      rcases stepEq : M.step s b with ⟨r, next⟩
      have rest := ih next
      simp only [stepEq] at first
      cases stopped : M.stops r with
      | true => simpa [scan, stepEq, stopped] using first
      | false =>
          simp only [scan, stepEq, stopped, Bool.false_eq_true, if_false]
          omega

theorem scan_consumed_pos {bs : List β} (nonempty : bs ≠ []) (s : σ) :
    0 < (M.scan s bs).consumed := by
  cases bs with
  | nil => exact absurd rfl nonempty
  | cons b bs =>
      simp only [scan]
      cases M.stops (M.step s b).1 with
      | true => exact Nat.one_pos
      | false => exact Nat.succ_pos _

/-- A stopping verdict is reached before the end of the input, so more input
does not change the scan. -/
theorem scan_append_of_stops {s : σ} {xs : List β} (stopped : M.stops (M.scan s xs).verdict = true)
    (ys : List β) : M.scan s (xs ++ ys) = M.scan s xs := by
  rcases M.scan_cases s xs with ⟨s', -, scanned⟩ | ⟨us, b, vs, s₁, r, s₂, rfl, advanced, stepEq,
    stops, scanned⟩
  · rw [scanned, M.idle_continues] at stopped
    cases stopped
  · rw [scanned, List.append_assoc, scan_append_of_advance advanced]
    simp [scan, stepEq, stops]

/-- A scan consumes at most `n` symbols exactly when there are no more or the first `n` of
them stop it. -/
theorem consumed_le_iff (s : σ) (bs : List β) (n : Nat) :
    (M.scan s bs).consumed ≤ n ↔ bs.length ≤ n ∨ (M.scan s (bs.take n)).verdict ≠ M.idle := by
  have split : bs.take n ++ bs.drop n = bs := List.take_append_drop n bs
  by_cases short : bs.length ≤ n
  · have bound := M.scan_consumed_le s bs
    exact ⟨fun _ => Or.inl short, fun _ => by omega⟩
  · rcases M.scan_cases s (bs.take n) with ⟨s', advanced, scanned⟩ |
      ⟨us, b, vs, s₁, r, s₂, -, -, -, stops, scanned⟩
    · have whole := scan_append_of_advance advanced (bs.drop n)
      have left : bs.drop n ≠ [] := by
        intro none
        exact short (List.drop_eq_nil_iff.mp none)
      have further := scan_consumed_pos (M := M) left s'
      rw [split] at whole
      rw [whole, scanned]
      have taken : (bs.take n).length = n := by
        rw [List.length_take]
        omega
      constructor
      · intro bound
        simp only [taken] at bound
        omega
      · rintro (shorter | stopped)
        · exact absurd shorter short
        · exact absurd rfl stopped
    · have stopped : M.stops (M.scan s (bs.take n)).verdict = true := by rw [scanned, stops]
      have same := scan_append_of_stops stopped (bs.drop n)
      have bound := M.scan_consumed_le s (bs.take n)
      rw [split] at same
      rw [same]
      rw [List.length_take] at bound
      constructor
      · intro _
        right
        intro idle
        rw [idle, M.idle_continues] at stopped
        cases stopped
      · intro _
        omega

theorem scan_take_consumed {s : σ} {bs : List β} {n : Nat}
    (stopped : M.stops (M.scan s bs).verdict = true) (consumed : (M.scan s bs).consumed = n) :
    M.scan s (bs.take n) = M.scan s bs := by
  rcases M.scan_cases s bs with ⟨s', -, scanned⟩ | ⟨us, b, vs, s₁, r, s₂, rfl, advanced, stepEq,
    stops, scanned⟩
  · rw [scanned, M.idle_continues] at stopped
    cases stopped
  · rw [scanned] at consumed ⊢
    subst consumed
    rw [List.take_length_add_append, scan_append_of_advance advanced]
    simp [scan, stepEq, stops]

/-- A proper prefix of an accepted word is consumed without a stop. -/
theorem Accepts.advance_prefix {accept : ρ} {s : σ} {word rest : List β} (proper : rest ≠ [])
    (accepted : M.Accepts accept s (word ++ rest)) : ∃ s', M.advance s word = some s' := by
  rcases M.scan_cases s word with ⟨s', advanced, -⟩ | ⟨us, b, vs, s₁, r, s₂, split, advanced,
    stepEq, stops, scanned⟩
  · exact ⟨s', advanced⟩
  · have stopped : M.stops (M.scan s word).verdict = true := by rw [scanned, stops]
    have same := scan_append_of_stops stopped rest
    have lengths := accepted.2
    rw [same, scanned, List.length_append] at lengths
    have positive := List.length_pos_of_ne_nil proper
    have shorter : us.length + 1 ≤ word.length := by simp [split]
    simp only at lengths
    omega

section Acceptance

variable {accept : ρ} (accepting : M.stops accept = true)
include accepting

/-- A scan accepts after `n` symbols exactly when the first `n` symbols form an
accepted word. -/
theorem accept_iff (s : σ) (bs : List β) (n : Nat) :
    ((M.scan s bs).verdict = accept ∧ (M.scan s bs).consumed = n) ↔
      n ≤ bs.length ∧ M.Accepts accept s (bs.take n) := by
  constructor
  · rintro ⟨verdict, consumed⟩
    have bound : n ≤ bs.length := consumed ▸ M.scan_consumed_le s bs
    have cut := scan_take_consumed (by rw [verdict, accepting]) consumed
    refine ⟨bound, ?_, ?_⟩
    · rw [cut, verdict]
    · rw [cut, consumed, List.length_take, Nat.min_eq_left bound]
  · rintro ⟨bound, verdict, consumed⟩
    have stopped : M.stops (M.scan s (bs.take n)).verdict = true := by rw [verdict, accepting]
    have whole := scan_append_of_stops stopped (bs.drop n)
    rw [List.take_append_drop] at whole
    rw [whole, verdict, consumed, List.length_take, Nat.min_eq_left bound]
    exact ⟨rfl, rfl⟩

/-- In a live scanner the scan of an input is idle exactly when the input is a
proper prefix of an accepted word. -/
theorem idle_iff {start : σ} (live : M.Live accept start) (bs : List β) :
    (M.scan start bs).verdict = M.idle ↔ ∃ rest, rest ≠ [] ∧ M.Accepts accept start (bs ++ rest) := by
  constructor
  · intro idle
    rcases M.scan_cases start bs with ⟨s', advanced, -⟩ | ⟨us, b, vs, s₁, r, s₂, -, -, -, stops,
      scanned⟩
    · obtain ⟨rest, accepted⟩ := live bs s' advanced
      have resumed := scan_append_of_advance advanced rest
      refine ⟨rest, ?_, ?_, ?_⟩
      · rintro rfl
        have : accept = M.idle := accepted.1.symm
        rw [this, M.idle_continues] at accepting
        cases accepting
      · rw [resumed, accepted.1]
      · rw [resumed, accepted.2, List.length_append]
    · have stoppedIdle : r = M.idle := by simpa [scanned] using idle
      rw [stoppedIdle, M.idle_continues] at stops
      cases stops
  · rintro ⟨rest, proper, accepted⟩
    obtain ⟨s', advanced⟩ := accepted.advance_prefix proper
    rw [scan_of_advance advanced]

/-- In a live scanner a scan stops with another verdict than the accepting one
exactly at the first symbol after which no accepted word continues the input. -/
theorem reject_iff {start : σ} (live : M.Live accept start) (bs : List β) (n : Nat) :
    ((M.scan start bs).verdict ≠ M.idle ∧ (M.scan start bs).verdict ≠ accept ∧
        (M.scan start bs).consumed = n + 1) ↔
      n < bs.length ∧
        (∃ rest, rest ≠ [] ∧ M.Accepts accept start (bs.take n ++ rest)) ∧
        ¬ ∃ rest, M.Accepts accept start (bs.take (n + 1) ++ rest) := by
  constructor
  · rintro ⟨notIdle, notAccept, consumed⟩
    rcases M.scan_cases start bs with ⟨s', -, scanned⟩ | ⟨us, b, vs, s₁, r, s₂, rfl, advanced,
      stepEq, stops, scanned⟩
    · rw [scanned] at notIdle
      exact absurd rfl notIdle
    · rw [scanned] at consumed notAccept
      obtain rfl : us.length = n := Nat.succ.inj consumed
      have before : (us ++ b :: vs).take us.length = us := by simp
      have prefixIdle : (M.scan start us).verdict = M.idle := by rw [scan_of_advance advanced]
      obtain ⟨rest, proper, accepted⟩ := (idle_iff accepting live us).mp prefixIdle
      rw [before, List.take_length_add_append]
      change _ ∧ _ ∧ ¬ ∃ rest, M.Accepts accept start (us ++ [b] ++ rest)
      refine ⟨by simp, ⟨rest, proper, accepted⟩, ?_⟩
      rintro ⟨more, extended⟩
      have stopped : M.scan start (us ++ [b]) = ⟨r, s₂, us.length + 1⟩ := by
        rw [scan_append_of_advance advanced]
        simp [scan, stepEq, stops]
      have same := scan_append_of_stops (by rw [stopped, stops]) more
      rw [Accepts, same, stopped] at extended
      exact notAccept extended.1
  · rintro ⟨bound, ⟨rest, proper, accepted⟩, dead⟩
    obtain ⟨s₁, advanced⟩ := accepted.advance_prefix proper
    obtain ⟨b, vs, dropped⟩ : ∃ b vs, bs.drop n = b :: vs := by
      cases tail : bs.drop n with
      | nil =>
          have := congrArg List.length tail
          simp at this
          omega
      | cons b vs => exact ⟨b, vs, rfl⟩
    have split : bs = bs.take n ++ b :: vs := by rw [← dropped, List.take_append_drop]
    have lengthEq : (bs.take n).length = n := by simp; omega
    have upTo : bs.take (n + 1) = bs.take n ++ [b] := by
      conv_lhs => rw [split]
      rw [List.take_append, lengthEq]
      simp [List.take_take]
    rcases stepEq : M.step s₁ b with ⟨r, s₂⟩
    cases stops : M.stops r with
    | false =>
        exfalso
        apply dead
        have further : M.advance start (bs.take (n + 1)) = some s₂ := by
          rw [upTo, advance_append_of advanced, advance_singleton stepEq stops]
        obtain ⟨more, extended⟩ := live _ _ further
        have resumed := scan_append_of_advance further more
        exact ⟨more, by rw [resumed, extended.1], by rw [resumed, extended.2, List.length_append]⟩
    | true =>
        have scanned : M.scan start bs = ⟨r, s₂, n + 1⟩ := by
          conv_lhs => rw [split]
          rw [scan_append_of_advance advanced, lengthEq]
          simp [scan, stepEq, stops]
        rw [scanned]
        refine ⟨?_, ?_, rfl⟩
        · rintro rfl
          rw [M.idle_continues] at stops
          cases stops
        · rintro rfl
          apply dead
          refine ⟨[], ?_⟩
          rw [List.append_nil]
          exact ((accept_iff accepting start bs (n + 1)).mp ⟨by rw [scanned], by rw [scanned]⟩).2

end Acceptance

/-! ## Repeated scans

A scan may be started again after a stopping verdict.  Where such a verdict leaves the
state alone, scans of pieces are one advance over the symbols that did not stop one. -/

variable (M) in
/-- The symbols of a scan before the one that stops it. -/
def taken : σ → List β → List β
  | _, [] => []
  | s, b :: bs =>
      match M.step s b with
      | (r, s') => if M.stops r then [] else b :: taken s' bs

variable (M) in
/-- The state after scans of these pieces, whatever their verdicts were. -/
def scanChunks (s : σ) (chunks : List (List β)) : σ :=
  chunks.foldl (fun s chunk => (M.scan s chunk).state) s

variable (M) in
def takenChunks : σ → List (List β) → List β
  | _, [] => []
  | s, chunk :: chunks => M.taken s chunk ++ takenChunks (M.scan s chunk).state chunks

/-- Stopping verdicts leave the state alone. -/
def StopsInPlace (M : Scanner σ β ρ) : Prop :=
  ∀ s b, M.stops (M.step s b).1 = true → (M.step s b).2 = s

theorem advance_taken (inPlace : M.StopsInPlace) (s : σ) (bs : List β) :
    M.advance s (M.taken s bs) = some (M.scan s bs).state := by
  induction bs generalizing s with
  | nil => rfl
  | cons b bs ih =>
      have unchanged := inPlace s b
      rcases stepEq : M.step s b with ⟨r, s'⟩
      rw [stepEq] at unchanged
      cases stopped : M.stops r with
      | true =>
          have same : s' = s := unchanged stopped
          simp [taken, scan, advance, stepEq, stopped, same]
      | false =>
          simp only [taken, scan, stepEq, stopped]
          exact (advance_cons stepEq stopped _).trans (ih s')

theorem advance_takenChunks (inPlace : M.StopsInPlace) (s : σ) (chunks : List (List β)) :
    M.advance s (M.takenChunks s chunks) = some (M.scanChunks s chunks) := by
  induction chunks generalizing s with
  | nil => rfl
  | cons chunk chunks ih => exact advance_trans (advance_taken inPlace s chunk) (ih _)

theorem takenChunks_append (s : σ) (first second : List (List β)) :
    M.takenChunks s (first ++ second) =
      M.takenChunks s first ++ M.takenChunks (M.scanChunks s first) second := by
  induction first generalizing s with
  | nil => rfl
  | cons chunk first ih =>
      rw [List.cons_append, takenChunks, ih, takenChunks, List.append_assoc]
      rfl

section Yields

variable {γ : Type*}

variable (M) in
/-- What the steps of a scan yield, in their order. -/
def yields (f : σ → β → List γ) : σ → List β → List γ
  | _, [] => []
  | s, b :: bs =>
      match M.step s b with
      | (r, s') => f s b ++ if M.stops r then [] else yields f s' bs

variable (M) in
def yieldsChunks (f : σ → β → List γ) : σ → List (List β) → List γ
  | _, [] => []
  | s, chunk :: chunks => M.yields f s chunk ++ yieldsChunks f (M.scan s chunk).state chunks

variable {f : σ → β → List γ}

theorem yields_append_of_advance {s s' : σ} {xs : List β} (advanced : M.advance s xs = some s')
    (ys : List β) : M.yields f s (xs ++ ys) = M.yields f s xs ++ M.yields f s' ys := by
  induction xs generalizing s with
  | nil =>
      obtain rfl : s = s' := Option.some.inj advanced
      rfl
  | cons x xs ih =>
      rcases stepEq : M.step s x with ⟨r, next⟩
      cases stopped : M.stops r with
      | true => simp [advance, stepEq, stopped] at advanced
      | false =>
          rw [advance_cons stepEq stopped] at advanced
          simp [yields, stepEq, stopped, ih advanced]

/-- What is yielded along an advance is yielded by one of its symbols. -/
theorem mem_yields_iff {s last : σ} {bs : List β} (advanced : M.advance s bs = some last) {z : γ} :
    z ∈ M.yields f s bs ↔
      ∃ xs b ys s', bs = xs ++ b :: ys ∧ M.advance s xs = some s' ∧ z ∈ f s' b := by
  constructor
  · intro member
    induction bs generalizing s with
    | nil => cases member
    | cons b bs ih =>
        rcases stepEq : M.step s b with ⟨r, next⟩
        cases stopped : M.stops r with
        | true => simp [advance, stepEq, stopped] at advanced
        | false =>
            rw [advance_cons stepEq stopped] at advanced
            simp only [yields, stepEq, stopped] at member
            rcases List.mem_append.mp member with here | later
            · exact ⟨[], b, bs, s, rfl, rfl, here⟩
            · obtain ⟨xs, c, ys, s', rfl, reached, yielded⟩ := ih advanced later
              refine ⟨b :: xs, c, ys, s', rfl, ?_, yielded⟩
              rw [advance_cons stepEq stopped, reached]
  · rintro ⟨xs, b, ys, s', rfl, reached, yielded⟩
    rw [yields_append_of_advance reached]
    apply List.mem_append_right
    exact List.mem_append_left _ yielded

/-- Where stopping symbols yield nothing, only the others count. -/
theorem yields_taken (silent : ∀ s b, M.stops (M.step s b).1 = true → f s b = []) (s : σ)
    (bs : List β) : M.yields f s (M.taken s bs) = M.yields f s bs := by
  induction bs generalizing s with
  | nil => rfl
  | cons b bs ih =>
      have nothing := silent s b
      rcases stepEq : M.step s b with ⟨r, s'⟩
      rw [stepEq] at nothing
      cases stopped : M.stops r with
      | true => simp [taken, yields, stepEq, stopped, nothing stopped]
      | false => simp [taken, yields, stepEq, stopped, ih]

theorem yields_takenChunks (inPlace : M.StopsInPlace)
    (silent : ∀ s b, M.stops (M.step s b).1 = true → f s b = []) (s : σ)
    (chunks : List (List β)) :
    M.yields f s (M.takenChunks s chunks) = M.yieldsChunks f s chunks := by
  induction chunks generalizing s with
  | nil => rfl
  | cons chunk chunks ih =>
      rw [takenChunks, yields_append_of_advance (advance_taken inPlace s chunk),
        yields_taken silent, ih, yieldsChunks]

end Yields

end Scanner

end CleanArchitecture
