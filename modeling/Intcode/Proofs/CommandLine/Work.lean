import Intcode.CommandLine.Commands

namespace Intcode.CommandLine

/-!
# What the work of a command comes to

A command never looks at what it has written.  So what its work comes to can be told apart from what
it writes; and all that the work itself puts on the error stream are the prompts of a console.

* `prompts`       — the text of some prompts
* `Work.ComesTo`  — what some work comes to, whatever has been written before it
* `Work.ComesTo.bind`, `Work.ComesTo.foldlM`, `Work.ComesTo.find` — work done piece by piece
-/

/-- The text of some prompts. -/
def prompts (n : Nat) : String := String.join (List.replicate n defaultPrompt)

theorem prompts_add (n m : Nat) : prompts n ++ prompts m = prompts (n + m) := by
  rw [prompts, prompts, prompts, ← String.join_append, List.replicate_append_replicate]

namespace Work

variable {α β σ : Type} {x : Work α} {r : Except Error α} {f : α → Work β}
  {g : α → Except Error β}

/-- Work that has come to something, and what has been written by then. -/
def ended (r : Except Error α) (o : Output) : EStateM.Result Error Output α :=
  match r with
  | .ok a => .ok a o
  | .error e => .error e o

/-- What some work comes to, whatever has been written before it. -/
def ComesTo (x : Work α) (r : Except Error α) : Prop :=
  ∀ o, ∃ o' n, x o = ended r o' ∧ o'.stderr = o.stderr ++ prompts n

namespace ComesTo

theorem pure (a : α) : ComesTo (Pure.pure a) (.ok a) :=
  fun o => ⟨o, 0, rfl, (String.append_empty).symm⟩

theorem throw (e : Error) : ComesTo (MonadExcept.throw e : Work α) (.error e) :=
  fun o => ⟨o, 0, rfl, (String.append_empty).symm⟩

/-- What follows is done only with a result. -/
theorem bind (hx : ComesTo x r) (hf : ∀ a, ComesTo (f a) (g a)) :
    ComesTo (x >>= f) (r >>= g) := by
  intro o
  obtain ⟨o₁, n, hrun, hwritten⟩ := hx o
  show ∃ o' n, EStateM.bind x f o = _ ∧ _
  unfold EStateM.bind
  rw [hrun]
  cases r with
  | error e => exact ⟨o₁, n, rfl, hwritten⟩
  | ok a =>
    obtain ⟨o₂, m, hrest, hmore⟩ := hf a o₁
    refine ⟨o₂, n + m, hrest, ?_⟩
    rw [hmore, hwritten, String.append_assoc, prompts_add]

/-- What is only written makes no difference to what follows. -/
theorem andThen {x : Work Unit} {y : Work β} {r : Except Error β} (hx : ComesTo x (.ok ()))
    (hy : ComesTo y r) : ComesTo (x >>= fun _ => y) r :=
  hx.bind (g := fun _ => r) fun _ => hy

theorem check (r : Except Error α) : ComesTo (Work.check r) r := by
  cases r with
  | ok a => exact pure a
  | error e => exact throw e

/-! ### Lists -/

theorem forM {write : α → Work Unit} (hwrite : ∀ a, ComesTo (write a) (.ok ())) (l : List α) :
    ComesTo (l.forM write) (.ok ()) := by
  induction l with
  | nil => exact pure ()
  | cons a l ih => exact (hwrite a).andThen ih

theorem foldlM {f : σ → α → Work σ} {g : σ → α → Except Error σ}
    (hf : ∀ s a, ComesTo (f s a) (g s a)) (l : List α) (s : σ) :
    ComesTo (l.foldlM f s) (l.foldlM g s) := by
  induction l generalizing s with
  | nil => exact pure s
  | cons a l ih =>
    rw [List.foldlM_cons, List.foldlM_cons]
    exact (hf s a).bind ih

theorem foldOrderings {f : σ → List α → Work σ} {g : σ → List α → Except Error σ}
    (hf : ∀ s ordering, ComesTo (f s ordering) (g s ordering)) (xs : List α) (s : σ) :
    ComesTo (Intcode.foldOrderings f xs s) (Intcode.foldOrderings g xs s) := by
  -- by induction on the number of members still to be chosen
  have harrange (n : Nat) (chosen rest : List α) (s : σ) :
      ComesTo (foldArrangements f n chosen rest s) (foldArrangements g n chosen rest s) := by
    induction n generalizing chosen rest s with
    | zero => exact hf s chosen.reverse
    | succ n ih => exact foldlM (fun s pick => ih (pick.1 :: chosen) pick.2 s) (picks rest) s
  exact harrange xs.length [] xs s

theorem findM? {p : α → Work Bool} {q : α → Except Error Bool}
    (hp : ∀ a, ComesTo (p a) (q a)) (l : List α) : ComesTo (l.findM? p) (l.findM? q) := by
  induction l with
  | nil => exact pure none
  | cons a l ih =>
    refine (hp a).bind fun found => ?_
    cases found with
    | true => exact pure (some a)
    | false => exact ih

theorem find {p : Int → Int → Work Bool} {q : Int → Int → Except Error Bool}
    (hp : ∀ noun verb, ComesTo (p noun verb) (q noun verb)) (nouns verbs : List Int) :
    ComesTo (NounVerb.find p nouns verbs) (NounVerb.find q nouns verbs) := by
  induction nouns with
  | nil => exact pure none
  | cons noun nouns ih =>
    refine (findM? (hp noun) verbs).bind fun found => ?_
    cases found with
    | some verb => exact pure (some (noun, verb))
    | none => exact ih

end ComesTo

/-! ### What is written -/

variable (s : Setting)

end Work

end Intcode.CommandLine
