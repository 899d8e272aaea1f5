import LoadTest.Proofs.Binding
import LoadTest.Proofs.Location
import LoadTest.Scenario.Compile

/-!
# Compilations that succeed

When a part of a compilation succeeds, and with which draft: first for the building blocks, then for
the compilation of a text, which takes its first statement and goes on with the rest.
-/

namespace LoadTest

variable {ν α β : Type}

/-- A draft with more work units at its end. -/
def Draft.append (d : Draft ν) (units : List WorkUnit) : Draft ν :=
  { d with units := d.units ++ units.toArray }

@[simp] lemma Draft.append_nil (d : Draft ν) : d.append [] = d := by simp [append]

@[simp] lemma Draft.append_append (d : Draft ν) (us vs : List WorkUnit) :
    (d.append us).append vs = d.append (us ++ vs) := by simp [append]

@[simp] lemma Draft.size_append (d : Draft ν) (us : List WorkUnit) :
    (d.append us).units.size = d.units.size + us.length := by simp [append]

namespace Drafting

variable {d d' : Draft ν}

lemma bind_eq_ok {x : Drafting ν α} {f : α → Drafting ν β} {b : β} :
    (x >>= f) d = .ok b d' ↔ ∃ a d₁, x d = .ok a d₁ ∧ f a d₁ = .ok b d' := by
  simp only [bind, EStateM.bind]
  split
  next a d₁ h => simp [h]
  next e d₁ h => simp [h]

lemma bind_of_ok {x : Drafting ν α} {f : α → Drafting ν β} {a : α} (h : x d = .ok a d') :
    (x >>= f) d = f a d' := by
  simp only [bind, EStateM.bind, h]

lemma bind_of_error {x : Drafting ν α} {f : α → Drafting ν β} {e : CompileError}
    (h : x d = .error e d') : (x >>= f) d = .error e d' := by
  simp only [bind, EStateM.bind, h]

lemma pure_eq_ok {a b : α} :
    (pure a : Drafting ν α) d = .ok b d' ↔ a = b ∧ d = d' := by
  simp [pure, EStateM.pure]

lemma throw_ne_ok {e : CompileError} {b : α} : (throw e : Drafting ν α) d ≠ .ok b d' := by
  intro h
  have herror : EStateM.Result.error e d = .ok b d' := h
  cases herror

lemma ofExcept_eq_ok {x : Except CompileError α} {a : α} :
    (ofExcept x : Drafting ν α) d = .ok a d' ↔ x = .ok a ∧ d = d' := by
  cases x with
  | error e => simpa [ofExcept] using throw_ne_ok
  | ok b => simp [ofExcept, pure_eq_ok]

/-- A value that is there is taken over and the draft stays. -/
lemma bind_ofExcept {x : Except CompileError α} {a : α} (h : x = .ok a) (f : α → Drafting ν β)
    (d : Draft ν) : (ofExcept x >>= f) d = f a d :=
  bind_of_ok (ofExcept_eq_ok.2 ⟨h, rfl⟩)

lemma map_eq_ok {x : Drafting ν α} {f : α → β} {b : β} :
    (f <$> x) d = .ok b d' ↔ ∃ a, x d = .ok a d' ∧ f a = b := by
  simp only [Functor.map, EStateM.map]
  split
  next a d₁ h => simp [h, and_comm]
  next e d₁ h => simp [h]

lemma emit_eq_ok {unit : WorkUnit} :
    (emit unit : Drafting ν Unit) d = .ok () d' ↔ d.append [unit] = d' := by
  simp [emit, Draft.append]

lemma count_eq_ok {n : Nat} :
    (count : Drafting ν Nat) d = .ok n d' ↔ d.units.size = n ∧ d = d' := by
  simp [count]

lemma emitTimes_eq (units : Array WorkUnit) (n : Nat) (d : Draft ν) :
    emitTimes units n d = .ok () (d.append (List.replicate n units.toList).flatten) := by
  induction n generalizing d with
  | zero => simp [emitTimes, pure, EStateM.pure]
  | succ n ih =>
    have hone : { d with units := d.units ++ units } = d.append units.toList := by
      simp [Draft.append]
    show emitTimes units n { d with units := d.units ++ units } = _
    rw [hone, ih, Draft.append_append, List.replicate_succ, List.flatten_cons]

lemma aside_eq_ok {work : Drafting ν Unit} {units : Array WorkUnit} :
    aside work d = .ok units d' ↔
      ∃ d₁, work { d with units := #[] } = .ok () d₁ ∧ d₁.units = units ∧
        { d₁ with units := d.units } = d' := by
  rw [aside]
  split
  next d₁ h => simp [h]
  next e d₁ h => simp [h]

/-- Work that only adds work units leaves the draft as it was when it is done on the side. -/
lemma aside_append {work : Drafting ν Unit} {units : List WorkUnit}
    (h : work { d with units := #[] } = .ok () (Draft.append { d with units := #[] } units)) :
    aside work d = .ok units.toArray d :=
  aside_eq_ok.2 ⟨_, h, by simp [Draft.append], by simp [Draft.append]⟩

end Drafting

namespace Registry

variable {r : Registry ν} {d d' : Draft ν}

@[simp] lemma compileBlock_nil : r.compileBlock [] d = .ok () d := by
  rw [compileBlock, if_pos rfl]
  rfl

lemma compileBlock_of_locate_error {text : List Char} {e : CompileError} (hne : text ≠ [])
    (hlocate : locate r.find? Command.form text = .error e) : r.compileBlock text = throw e := by
  rw [compileBlock, if_neg hne, hlocate]

/-- A text that is not empty is compiled by locating its first statement, having that handled, and
going on with the rest. -/
lemma compileBlock_of_locate_ok {text : List Char} {found : Located (Command ν) text}
    (hne : text ≠ []) (hlocate : locate r.find? Command.form text = .ok found) :
    r.compileBlock text =
      found.command.handler found.statement (found.statement.body.map r.compileBlock) >>=
        fun unit => unit.elim (pure ()) Drafting.emit >>= fun _ => r.compileBlock found.rest := by
  rw [compileBlock, if_neg hne, hlocate]
  refine (congrArg (fun body => found.command.handler found.statement body >>= _)
    (?hbody : _ = found.statement.body.map r.compileBlock)).trans ?_
  case hbody =>
    split
    next h => simp [h]
    next b h => simp [h]
  congr 1
  funext unit
  cases unit with
  | none => rfl
  | some u => rfl

/-- A text that is not empty compiles exactly if it starts with a statement that its command
handles, and the rest of it compiles after that. -/
lemma compileBlock_eq_ok {text : List Char} (hne : text ≠ []) :
    r.compileBlock text d = .ok () d' ↔
      ∃ command s rest, Starts r.find? Command.form text command s rest ∧
        ∃ unit d₁, command.handler s (s.body.map r.compileBlock) d = .ok unit d₁ ∧
          r.compileBlock rest (d₁.append unit.toList) = .ok () d' := by
  have hemit : ∀ (unit : Option WorkUnit) (d₁ d₂ : Draft ν),
      (unit.elim (pure ()) Drafting.emit : Drafting ν Unit) d₁ = .ok () d₂ ↔
        d₁.append unit.toList = d₂ := by
    intro unit d₁ d₂
    cases unit with
    | none => simp [Drafting.pure_eq_ok]
    | some u => exact Drafting.emit_eq_ok
  constructor
  · intro h
    cases hfound : locate r.find? Command.form text with
    | error e =>
      rw [compileBlock_of_locate_error hne hfound] at h
      exact absurd h Drafting.throw_ne_ok
    | ok found =>
      rw [compileBlock_of_locate_ok hne hfound] at h
      obtain ⟨unit, d₁, hhandler, h⟩ := Drafting.bind_eq_ok.1 h
      obtain ⟨_, d₂, hunit, h⟩ := Drafting.bind_eq_ok.1 h
      obtain rfl := (hemit _ _ _).1 hunit
      exact ⟨_, _, _, .of_locate hfound, unit, d₁, hhandler, h⟩
  · rintro ⟨command, s, rest, hstarts, unit, d₁, hhandler, h⟩
    obtain ⟨found, hfound, rfl, rfl, rfl⟩ := hstarts.exists_locate
    rw [compileBlock_of_locate_ok hne hfound]
    exact Drafting.bind_eq_ok.2 ⟨unit, d₁, hhandler,
      Drafting.bind_eq_ok.2 ⟨(), _, (hemit _ _ _).2 rfl, h⟩⟩

end Registry

end LoadTest
