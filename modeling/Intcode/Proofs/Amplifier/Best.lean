import Mathlib.Data.List.Induction
import Intcode.Proofs.Amplifier.Orderings
import Intcode.Proofs.Amplifier.Returns

namespace Intcode.Amplifier

/-!
# The best ordering of phases

The search runs the orderings of a set of phases one after another, in the lexicographic order of the
places which the phases of an ordering have in the set.  It answers with the first ordering that has
the greatest signal of all; an ordering that raises an error before ends the search with this error.

* `exists_foldl_better`    — the best of a list is the first that is greatest
* `exists_search_eq`, `search_of_error` — the search, whichever way the orderings are run
* `IsBest`                 — the first ordering with the greatest signal
* `Gives`                  — what the search comes to
* `maxSignal_spec`         — the best ordering of a program
-/

/-! ### The first that is greatest -/

/-- The best of a list is its first member with the greatest signal. -/
theorem exists_foldl_better {ι : Type} (signal : ι → Int) (phases : ι → List Int) {l : List ι}
    (hl : l ≠ []) :
    ∃ front i back, l = front ++ i :: back ∧
      l.foldl (fun best j => better best (signal j) (phases j)) none =
        some ⟨signal i, phases i⟩ ∧
      (∀ j ∈ front, signal j < signal i) ∧ ∀ j ∈ back, signal j ≤ signal i := by
  -- by induction from the end: the last member comes to be compared with the best of the others
  induction l using List.reverseRecOn with
  | nil => exact absurd rfl hl
  | append_singleton l k ih =>
    rw [List.foldl_concat]
    cases l with
    | nil => exact ⟨[], k, [], rfl, rfl, nofun, nofun⟩
    | cons i₀ l =>
      obtain ⟨front, i, back, hsplit, hbest, hfront, hback⟩ := ih (List.cons_ne_nil _ _)
      rw [hbest, hsplit]
      by_cases hgreater : signal i < signal k
      · -- all that has come before is less
        refine ⟨front ++ i :: back, k, [], rfl, if_pos hgreater, ?_, nofun⟩
        intro j hj
        rcases List.mem_append.1 hj with hj | hj
        · exact Int.lt_trans (hfront j hj) hgreater
        · rcases List.mem_cons.1 hj with rfl | hj
          · exact hgreater
          · exact Int.lt_of_le_of_lt (hback j hj) hgreater
      · refine ⟨front, i, back ++ [k], by simp, if_neg hgreater, hfront, ?_⟩
        intro j hj
        rcases List.mem_append.1 hj with hj | hj
        · exact hback j hj
        · obtain rfl := List.mem_singleton.1 hj
          omega

/-! ### The search -/

/-- What is done with each ordering. -/
def visit (run : List Int → Except Error Int) (best : Option Best) (phases : List Int) :
    Except Error (Option Best) := do
  let signal ← run phases
  return better best signal phases

variable {run : List Int → Except Error Int} {set : List Int} {places : List Nat}

/-- The search visits the orderings by the places of their members. -/
theorem search_eq_foldlM (run : List Int → Except Error Int) (set : List Int) :
    search run set = (orderings (List.range set.length)).foldlM
      (fun best places => visit run best (atPlaces set places)) none := by
  rw [search, foldOrderings_eq_foldlM, orderings_eq_map, List.foldlM_map]
  rfl

/-- Orderings that all have a signal are compared by it. -/
theorem foldlM_visit (signal : List Int → Int) {l : List (List Nat)}
    (hok : ∀ places ∈ l, run (atPlaces set places) = .ok (signal (atPlaces set places)))
    (best : Option Best) :
    l.foldlM (fun best places => visit run best (atPlaces set places)) best =
      .ok (l.foldl (fun best places =>
        better best (signal (atPlaces set places)) (atPlaces set places)) best) := by
  induction l generalizing best with
  | nil => rfl
  | cons places l ih =>
    obtain ⟨hfirst, hrest⟩ := List.forall_mem_cons.1 hok
    rw [List.foldlM_cons, visit, hfirst]
    exact ih hrest _

/-- There is an ordering. -/
theorem orderings_ne_nil (n : Nat) : orderings (List.range n) ≠ [] :=
  List.ne_nil_of_mem (mem_orderings_iff.2 (.refl (List.range n)))

/-- **The search finds the first ordering with the greatest signal**, if all orderings have one. -/
theorem exists_search_eq (set : List Int) (signal : List Int → Int) :
    ∃ places : List Nat, places.Perm (List.range set.length) ∧
      (∀ phases, phases.Perm set → signal phases ≤ signal (atPlaces set places)) ∧
      (∀ other : List Nat, other.Perm (List.range set.length) → other < places →
        signal (atPlaces set other) < signal (atPlaces set places)) ∧
      ∀ run : List Int → Except Error Int,
        (∀ phases, phases.Perm set → run phases = .ok (signal phases)) →
          search run set = .ok (some ⟨signal (atPlaces set places), atPlaces set places⟩) := by
  -- the lesser places are those in front
  obtain ⟨front, places, back, hsplit, hbest, hfront, hback⟩ :=
    exists_foldl_better (fun places => signal (atPlaces set places)) (atPlaces set)
      (orderings_ne_nil set.length)
  have hmem : places ∈ orderings (List.range set.length) := by
    rw [hsplit]
    exact List.mem_append_right _ List.mem_cons_self
  refine ⟨places, mem_orderings_iff.1 hmem, ?_, ?_, ?_⟩
  · intro phases hphases
    obtain ⟨other, hother, rfl⟩ := exists_atPlaces hphases
    have hother := mem_orderings_iff.2 hother
    rw [hsplit, List.mem_append, List.mem_cons] at hother
    rcases hother with hother | rfl | hother
    · exact Int.le_of_lt (hfront other hother)
    · exact Int.le_refl _
    · exact hback other hother
  · intro other hother hlt
    exact hfront other ((lt_iff_of_orderings_eq hsplit hother).1 hlt)
  · intro run hrun
    have hok : ∀ places ∈ orderings (List.range set.length),
        run (atPlaces set places) = .ok (signal (atPlaces set places)) := fun places hplaces =>
      hrun _ (atPlaces_perm (mem_orderings_iff.1 hplaces))
    rw [search_eq_foldlM, foldlM_visit signal hok, hbest]

/-- An ordering without a signal is the last that is visited. -/
theorem foldlM_visit_of_error {cause : Error} (herror : run (atPlaces set places) = .error cause)
    (back : List (List Nat)) (best : Option Best) :
    (places :: back).foldlM (fun best places => visit run best (atPlaces set places)) best =
      .error cause := by
  rw [List.foldlM_cons, visit, herror]
  rfl

/-- **An error ends the search**, if all orderings before have a signal. -/
theorem search_of_error (hplaces : places.Perm (List.range set.length)) {cause : Error}
    (herror : run (atPlaces set places) = .error cause)
    (hbefore : ∀ other : List Nat, other.Perm (List.range set.length) → other < places →
      ∃ s, run (atPlaces set other) = .ok s) :
    search run set = .error cause := by
  obtain ⟨front, back, hsplit⟩ := List.append_of_mem (mem_orderings_iff.2 hplaces)
  have hsignal : ∀ other ∈ front, run (atPlaces set other) =
      .ok ((run (atPlaces set other)).toOption.getD 0) := by
    intro other hmem
    have hall : other ∈ orderings (List.range set.length) := by
      rw [hsplit]
      exact List.mem_append_left _ hmem
    have hother := mem_orderings_iff.1 hall
    obtain ⟨s, hs⟩ := hbefore other hother ((lt_iff_of_orderings_eq hsplit hother).2 hmem)
    rw [hs]
    rfl
  rw [search_eq_foldlM, hsplit, List.foldlM_append,
    foldlM_visit (fun phases => (run phases).toOption.getD 0) hsignal]
  exact foldlM_visit_of_error herror back _

/-! ### What the search comes to -/

/-- The ordering with these places has the greatest signal of all, and every ordering with lesser
    places has a lesser one. -/
structure IsBest (wiring : Wiring) (image set : List Int) (places : List Nat) (best : Best) :
    Prop where
  perm : places.Perm (List.range set.length)
  phases_eq : best.phases = atPlaces set places
  returns : Returns wiring image best.phases (.ok best.signal)
  greatest : ∀ phases s, phases.Perm set → Returns wiring image phases (.ok s) → s ≤ best.signal
  first : ∀ (other : List Nat) s, other.Perm (List.range set.length) → other < places →
    Returns wiring image (atPlaces set other) (.ok s) → s < best.signal

/-- The search for the best ordering of a program comes to this with enough steps, and also when
    amplifiers that run side by side take other turns. -/
structure Gives (program : Program.Source) (phases : Option (List Int)) (wiring : Wiring)
    (r : Except Error Best) : Prop where
  enough : ∃ enough, ∀ fuel, enough ≤ fuel → maxSignal fuel program phases wiring = r
  anyhow : ∀ image, program.image = .ok image → ∀ run : List Int → Except Error Int,
    (∀ phases r, Returns wiring image phases r → MayReturn wiring image phases (run phases)) →
      search run (phases.getD wiring.defaultPhases) = r.map some

variable {program : Program.Source} {phases : Option (List Int)} {wiring : Wiring}
  {image : List Int}

/-- With enough steps all orderings are found to return what they do. -/
theorem exists_enough_orderings (wiring : Wiring) (image set : List Int) :
    ∃ enough, ∀ fuel, enough ≤ fuel → ∀ phases, phases.Perm set → ∀ r,
      Returns wiring image phases r → runOrdering fuel wiring image phases = r := by
  -- there are finitely many orderings, so there is a number of steps for all of them
  have heach : ∀ phases ∈ orderings set, ∃ enough, ∀ fuel, enough ≤ fuel → ∀ r,
      Returns wiring image phases r → runOrdering fuel wiring image phases = r := by
    intro phases _
    by_cases hsome : ∃ r, Returns wiring image phases r
    · obtain ⟨r, hr⟩ := hsome
      obtain ⟨enough, hrun⟩ := hr.exists_enough
      refine ⟨enough, fun fuel hfuel r' hr' => ?_⟩
      rw [hrun fuel hfuel, hr.eq hr']
    · exact ⟨0, fun _ _ r hr => absurd ⟨r, hr⟩ hsome⟩
  obtain ⟨enough, hall⟩ := exists_enough_forall heach
  exact ⟨enough, fun fuel hfuel phases hphases => hall fuel hfuel phases
    (mem_orderings_iff.2 hphases)⟩

/-- It is enough to know the search by what the orderings return. -/
theorem gives_of_search (himage : program.image = .ok image)
    (hset : phases.getD wiring.defaultPhases ≠ []) {r : Except Error Best}
    (hsearch : ∀ run : List Int → Except Error Int,
      (∀ p, p.Perm (phases.getD wiring.defaultPhases) → ∀ r, Returns wiring image p r → run p = r) →
        search run (phases.getD wiring.defaultPhases) = r.map some) :
    Gives program phases wiring r := by
  constructor
  · obtain ⟨enough, hrun⟩ :=
      exists_enough_orderings wiring image (phases.getD wiring.defaultPhases)
    refine ⟨enough, fun fuel hfuel => ?_⟩
    have hchecked : checkPhases (phases.getD wiring.defaultPhases) = .ok () := by
      simp [checkPhases, hset]
    have hfound := hsearch (runOrdering fuel wiring image) (hrun fuel hfuel)
    unfold maxSignal
    rw [himage]
    dsimp only [Except.mapError]
    show (checkPhases _ >>= fun _ => search _ _ >>= _) = r
    rw [hchecked, hfound]
    cases r <;> rfl
  · intro image' himage' run hrun
    obtain rfl : image = image' := by simpa [himage] using himage'
    exact hsearch run fun p _ r hr => hr.mayReturn_iff.1 (hrun p r hr)

/-- **If all orderings have a signal, the search gives the best one.** -/
theorem exists_isBest (himage : program.image = .ok image)
    (hset : phases.getD wiring.defaultPhases ≠ [])
    (hall : ∀ p, p.Perm (phases.getD wiring.defaultPhases) →
      ∃ s, Returns wiring image p (.ok s)) :
    ∃ places best, IsBest wiring image (phases.getD wiring.defaultPhases) places best ∧
      Gives program phases wiring (.ok best) := by
  choose! signal hsignal using hall
  obtain ⟨places, hplaces, hgreatest, hfirst, hsearch⟩ :=
    exists_search_eq (phases.getD wiring.defaultPhases) signal
  have heq {p : List Int} {s : Int} (hp : p.Perm (phases.getD wiring.defaultPhases))
      (hs : Returns wiring image p (.ok s)) : signal p = s :=
    Except.ok.inj (hs.eq (hsignal p hp))
  refine ⟨places, ⟨signal _, _⟩, ⟨hplaces, rfl, hsignal _ (atPlaces_perm hplaces), ?_, ?_⟩, ?_⟩
  · intro p s hp hs
    rw [← heq hp hs]
    exact hgreatest p hp
  · intro other s hother hlt hs
    rw [← heq (atPlaces_perm hother) hs]
    exact hfirst other hother hlt
  · exact gives_of_search himage hset fun run hrun =>
      hsearch run fun p hp => hrun p hp _ (hsignal p hp)

/-- **If an ordering raises an error, and all before it have a signal, the search gives the error.** -/
theorem gives_error (himage : program.image = .ok image)
    (hset : phases.getD wiring.defaultPhases ≠ [])
    (hplaces : places.Perm (List.range (phases.getD wiring.defaultPhases).length)) {cause : Error}
    (herror : Returns wiring image (atPlaces (phases.getD wiring.defaultPhases) places)
      (.error cause))
    (hbefore : ∀ other : List Nat,
      other.Perm (List.range (phases.getD wiring.defaultPhases).length) → other < places →
        ∃ s, Returns wiring image (atPlaces (phases.getD wiring.defaultPhases) other) (.ok s)) :
    Gives program phases wiring (.error cause) := by
  refine gives_of_search himage hset fun run hrun => ?_
  refine search_of_error hplaces (hrun _ (atPlaces_perm hplaces) _ herror) ?_
  intro other hother hlt
  obtain ⟨s, hs⟩ := hbefore other hother hlt
  exact ⟨s, hrun _ (atPlaces_perm hother) _ hs⟩

/-- The best signals of a set of phases and of the same set in another order are equal. -/
theorem IsBest.signal_eq {set set' : List Int} {places places' : List Nat} {best best' : Best}
    (hbest : IsBest wiring image set places best) (hbest' : IsBest wiring image set' places' best')
    (hperm : set'.Perm set) : best'.signal = best.signal := by
  have hphases : best.phases.Perm set := hbest.phases_eq ▸ atPlaces_perm hbest.perm
  have hphases' : best'.phases.Perm set' := hbest'.phases_eq ▸ atPlaces_perm hbest'.perm
  have hle := hbest.greatest _ _ (hphases'.trans hperm) hbest'.returns
  have hge := hbest'.greatest _ _ (hphases.trans hperm.symm) hbest.returns
  exact Int.le_antisymm hle hge

/-- **The best ordering of a program.**  A program that is not read is refused, and so is an empty set
    of phases.  If every ordering of the phases returns a signal, the search gives the first ordering
    with the greatest one, in the lexicographic order of places, and its signal; the signal is the
    same for the phases in another order.  If an ordering raises an error and every ordering before
    it returns a signal, the search gives that error. -/
theorem maxSignal_spec (program : Program.Source) (phases : Option (List Int)) (wiring : Wiring) :
    let set := phases.getD wiring.defaultPhases
    match program.image with
    | .error e => ∀ fuel, maxSignal fuel program phases wiring = .error (.parse e)
    | .ok image =>
      (set = [] → ∀ fuel, maxSignal fuel program phases wiring = .error .emptyPhaseSet) ∧
      (set ≠ [] → (∀ p, p.Perm set → ∃ s, Returns wiring image p (.ok s)) →
        ∃ places best, IsBest wiring image set places best ∧
          Gives program phases wiring (.ok best) ∧
          ∀ set', set'.Perm set → ∃ phases',
            Gives program (some set') wiring (.ok ⟨best.signal, phases'⟩)) ∧
      (set ≠ [] → ∀ (places : List Nat) cause, places.Perm (List.range set.length) →
        Returns wiring image (atPlaces set places) (.error cause) →
        (∀ other : List Nat, other.Perm (List.range set.length) → other < places →
          ∃ s, Returns wiring image (atPlaces set other) (.ok s)) →
        Gives program phases wiring (.error cause)) := by
  intro set
  cases himage : program.image with
  | error e =>
    intro fuel
    unfold maxSignal
    rw [himage]
    rfl
  | ok image =>
    refine ⟨fun hempty fuel => ?_, fun hset hall => ?_, fun hset places cause hplaces => ?_⟩
    · have hrefused : checkPhases set = .error .emptyPhaseSet := by simp [checkPhases, hempty]
      unfold maxSignal
      rw [himage]
      show (checkPhases set >>= _) = _
      rw [hrefused]
      rfl
    · obtain ⟨places, best, hbest, hgives⟩ := exists_isBest himage hset hall
      refine ⟨places, best, hbest, hgives, fun set' hperm => ?_⟩
      have hset' : (some set').getD wiring.defaultPhases ≠ [] := by
        rintro rfl
        exact hset hperm.nil_eq.symm
      obtain ⟨_, best', hbest', hgives'⟩ := exists_isBest himage hset'
        fun p hp => hall p (hp.trans hperm)
      rw [← hbest.signal_eq hbest' hperm]
      exact ⟨best'.phases, hgives'⟩
    · exact gives_error himage hset hplaces

/-- Two values have two orderings. -/
theorem perm_pair_iff {α : Type} {a b : α} {p : List α} :
    p.Perm [a, b] ↔ p = [a, b] ∨ p = [b, a] := by
  rw [← mem_orderings_iff]
  simp [orderings, arrangements, picks]

/-- A program that takes its phase and one signal, and sends ten times the signal and the phase. -/
def shifter : List Int := [3, 15, 3, 16, 1002, 16, 10, 16, 1, 16, 15, 15, 4, 15, 99, 0, 0]

/-- Two relays, one after the other, return the seed. -/
theorem returns_relay {phases : List Int} (hphases : phases.Perm [5, 6]) :
    Returns .ring Ring.relay phases (.ok 0) := by
  have hconsumed (phases : List Int)
      (hlink : ((Ring.start Ring.relay phases 0).takenBy 1
        [0, 0, 0, 0, 0, 0, 1, 1, 1, 1, 1, 1]).drop 1 =
          (Ring.start Ring.relay phases 0).sentBy 0 [0, 0, 0, 0, 0, 0, 1, 1, 1, 1, 1, 1])
      (hlen : phases.length = 2) :
      Ring.Consumed Ring.relay phases 0 [0, 0, 0, 0, 0, 0, 1, 1, 1, 1, 1, 1] := by
    intro i hi
    obtain rfl : i = 0 := by omega
    exact hlink
  rcases perm_pair_iff.1 hphases with rfl | rfl
  · exact Returns.of_halts (by decide) rfl ⟨by decide +kernel, by decide +kernel⟩
      (hconsumed _ (by decide +kernel) rfl)
  · exact Returns.of_halts (by decide) rfl ⟨by decide +kernel, by decide +kernel⟩
      (hconsumed _ (by decide +kernel) rfl)

/-- Of two shifters in a chain the better ordering makes `10`; of two relays in a ring every ordering
    returns the seed; and a chain of programs that halt at once has no signal. -/
theorem maxSignal_spec_of_pairs :
    (∃ best, Gives (.cells shifter) (some [0, 1]) .chain (.ok best) ∧ 10 ≤ best.signal) ∧
      (∃ best, Gives (.cells Ring.relay) (some [5, 6]) .ring (.ok best)) ∧
      Gives (.cells [99]) (some [0, 1]) .chain (.error .noSignal) := by
  obtain ⟨-, hchain, -⟩ := maxSignal_spec (.cells shifter) (some [0, 1]) .chain
  obtain ⟨-, hring, -⟩ := maxSignal_spec (.cells Ring.relay) (some [5, 6]) .ring
  obtain ⟨-, -, herror⟩ := maxSignal_spec (.cells [99]) (some [0, 1]) .chain
  have hten : Returns .chain shifter [1, 0] (.ok 10) := Returns.of_chain (k := 20) nofun rfl
  refine ⟨?_, ?_, ?_⟩
  · obtain ⟨_, best, hbest, hgives, -⟩ := hchain (by decide) fun p hp => by
      rcases perm_pair_iff.1 hp with rfl | rfl
      · exact ⟨1, Returns.of_chain (k := 20) nofun rfl⟩
      · exact ⟨10, hten⟩
    exact ⟨best, hgives, hbest.greatest [1, 0] 10 (by decide) hten⟩
  · obtain ⟨_, best, -, hgives, -⟩ :=
      hring (by decide) fun p hp => ⟨0, returns_relay hp⟩
    exact ⟨best, hgives⟩
  · refine herror (by decide) [0, 1] .noSignal (by decide)
      (Returns.of_chain (k := 20) nofun rfl) fun other hother hlt => ?_
    -- there are no lesser places
    have hpair : other.Perm [0, 1] := hother
    rcases perm_pair_iff.1 hpair with rfl | rfl
    · exact absurd hlt (by decide)
    · exact absurd hlt (by decide)

end Intcode.Amplifier
