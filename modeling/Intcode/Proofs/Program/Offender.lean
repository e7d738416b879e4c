import Intcode.Proofs.Program.Grammar

namespace Intcode.Program

open Numeral (Literal NoDigit IsDigit)

/-!
# Where a text stops being a program

A parse error names a place in the body of the text.  What stands before it can be completed to a
body, and no body begins with what stands there: with the character at that place, or, where that is
a minus sign, with the sign and the character behind it.  So an error is never reported late.

* `Viable`               — the texts that can be completed to a body
* `Blames`               — the place where a body goes wrong
* `literals_blames`      — the place where the reader of a body stops
* `parse_error_position` — the place that a parse error names
-/

/-- The texts that can be completed to one of literals. -/
def Viable (cs : List Char) : Prop := ∃ more vs, Literals (cs ++ more) vs

/-- A body goes wrong behind its first `k` characters, and not before. -/
structure Blames (b : List Char) (k : Nat) : Prop where
  le_length : k ≤ b.length
  viable : Viable (b.take k)
  /-- The next character is wrong. -/
  char : ∀ c, b[k]? = some c → c ≠ '-' → ¬Viable (b.take (k + 1))
  /-- A minus sign may be right there, but not with what comes behind it. -/
  sign : b[k]? = some '-' → k + 1 < b.length → ¬Viable (b.take (k + 2))

/-- What is left of a text when its one line terminator is dropped. -/
inductive Stripped : List Char → List Char → Prop where
  | crlf (b : List Char) : Stripped (b ++ ['\r', '\n']) b
  | lf {b : List Char} (hlast : b.getLast? ≠ some '\r') : Stripped (b ++ ['\n']) b
  | none {b : List Char} (hlast : b.getLast? ≠ some '\n') : Stripped b b

variable {b cs ds l more : List Char} {done vs : List Int} {v : Int} {c : Char} {k position : Nat}
  {e : ParseError}

/-! ### Viable texts -/

theorem viable_nil : Viable [] := by
  refine ⟨['0'], _, .last (.plain (List.cons_ne_nil _ _) fun d hd => ?_)⟩
  rw [List.mem_singleton.1 hd]
  decide

/-- What stands before a viable text ends is viable. -/
theorem Viable.of_append (h : Viable (cs ++ ds)) : Viable cs := by
  obtain ⟨more, vs, hliterals⟩ := h
  rw [List.append_assoc] at hliterals
  exact ⟨ds ++ more, vs, hliterals⟩

theorem viable_of_literal (hliteral : Literal l v) : Viable l := by
  refine ⟨[], [v], ?_⟩
  rw [List.append_nil]
  exact .last hliteral

/-- A text of literals begins with one, and behind it the text ends or goes on with a comma and
    more literals. -/
theorem Literals.exists_scan (h : Literals cs vs) :
    ∃ scan, Numeral.scan? cs = some scan ∧
      (scan.rest = [] ∨ ∃ ls vs', scan.rest = ',' :: ls ∧ Literals ls vs') := by
  cases h with
  | @last l v hliteral => exact ⟨_, scan?_of_last hliteral, .inl rfl⟩
  | @cons l ls v vs hliteral hmore =>
    exact ⟨_, scan?_of_literal hliteral (noDigit_comma ls), .inr ⟨ls, vs, rfl, hmore⟩⟩

/-- What stands behind a literal that is not followed by a digit: nothing, or a comma and more
    literals. -/
theorem Literals.behind (h : Literals (l ++ ds) vs) (hliteral : Literal l v) (hds : NoDigit ds) :
    ds = [] ∨ ∃ ls vs', ds = ',' :: ls ∧ Literals ls vs' := by
  obtain ⟨scan, hscan, hrest⟩ := h.exists_scan
  cases hscan.symm.trans (scan?_of_literal hliteral hds)
  exact hrest

/-- Behind a literal and a comma a text of literals begins anew. -/
theorem viable_comma_iff (hliteral : Literal l v) : Viable (l ++ ',' :: cs) ↔ Viable cs := by
  constructor
  · rintro ⟨more, vs, hliterals⟩
    rw [List.append_assoc] at hliterals
    rcases hliterals.behind hliteral (noDigit_comma _) with hnil | ⟨ls, vs', hcons, hmore⟩
    · cases hnil
    · cases hcons
      exact ⟨more, vs', hmore⟩
  · rintro ⟨more, vs, hliterals⟩
    refine ⟨more, v :: vs, ?_⟩
    rw [List.append_assoc]
    exact .cons hliteral hliterals

/-- Behind a literal there is only a comma, or a digit of a longer one. -/
theorem not_viable_of_unexpected (hliteral : Literal l v) (hdigit : ¬IsDigit c) (hcomma : c ≠ ',') :
    ¬Viable (l ++ [c]) := by
  rintro ⟨more, vs, hliterals⟩
  rw [List.append_assoc] at hliterals
  have hstop : NoDigit ([c] ++ more) := by
    rintro d ⟨⟩
    exact hdigit
  rcases hliterals.behind hliteral hstop with hnil | ⟨ls, vs', hcons, _⟩
  · cases hnil
  · exact hcomma (List.cons_eq_cons.1 hcons).1

/-- A text begins with no literal if no longer one does. -/
theorem not_viable_of_scan?_eq_none (hnone : ∀ more, Numeral.scan? (cs ++ more) = none) :
    ¬Viable cs := by
  rintro ⟨more, vs, hliterals⟩
  obtain ⟨scan, hscan, _⟩ := hliterals.exists_scan
  rw [hnone more] at hscan
  cases hscan

/-! ### The place where a body goes wrong -/

/-- No literal begins at the front. -/
theorem Blames.of_scan?_eq_none (hnone : Numeral.scan? cs = none) : Blames cs 0 := by
  refine ⟨Nat.zero_le _, viable_nil, ?_, ?_⟩
  · intro c hc hne
    obtain ⟨rest, rfl⟩ := List.head?_eq_some_iff.1 (List.head?_eq_getElem?.trans hc)
    have hdigit := (Numeral.scan?_cons_eq_none_iff hne).1 hnone
    exact not_viable_of_scan?_eq_none fun _ => (Numeral.scan?_cons_eq_none_iff hne).2 hdigit
  · intro hsign hlt
    obtain ⟨rest, rfl⟩ := List.head?_eq_some_iff.1 (List.head?_eq_getElem?.trans hsign)
    obtain ⟨d, rest, rfl⟩ := List.exists_cons_of_length_pos (Nat.lt_of_succ_lt_succ hlt)
    have hdigit := Numeral.noDigit_cons_iff.1 (Numeral.scan?_minus_eq_none_iff.1 hnone)
    exact not_viable_of_scan?_eq_none fun _ =>
      Numeral.scan?_minus_eq_none_iff.2 (Numeral.noDigit_cons_iff.2 hdigit)

/-- A literal ends where neither a digit nor a comma follows. -/
theorem Blames.of_unexpected (hliteral : Literal l v) (hdigit : ¬IsDigit c) (hcomma : c ≠ ',') :
    Blames (l ++ c :: more) l.length := by
  have hnot := not_viable_of_unexpected hliteral hdigit hcomma
  refine ⟨List.length_append ▸ Nat.le_add_right _ _, ?_, fun _ _ _ => ?_, fun _ _ => ?_⟩
  · rw [List.take_left]
    exact viable_of_literal hliteral
  · rw [List.take_length_add_append]
    exact hnot
  · -- whatever comes behind the wrong character does not make it right
    rw [List.take_length_add_append, List.take_succ_cons, List.append_cons]
    exact fun hviable => hnot hviable.of_append

/-- Behind a literal and a comma a body goes wrong where what follows does. -/
theorem Blames.behind_comma (hblames : Blames more k) (hliteral : Literal l v) :
    Blames (l ++ ',' :: more) (l.length + 1 + k) := by
  have htake (j : Nat) : (l ++ ',' :: more).take (l.length + 1 + j) = l ++ ',' :: more.take j := by
    rw [Nat.add_assoc, Nat.add_comm 1 j, List.take_length_add_append, List.take_succ_cons]
  have hget : (l ++ ',' :: more)[l.length + 1 + k]? = more[k]? := by
    rw [Nat.add_assoc, List.getElem?_append_right (Nat.le_add_right _ _), Nat.add_sub_cancel_left,
      Nat.add_comm, List.getElem?_cons_succ]
  have hlength : (l ++ ',' :: more).length = l.length + 1 + more.length := by
    rw [List.length_append, List.length_cons, Nat.add_assoc, Nat.add_comm 1]
  refine ⟨?_, ?_, ?_, ?_⟩
  · rw [hlength]
    exact Nat.add_le_add_left hblames.le_length _
  · rw [htake, viable_comma_iff hliteral]
    exact hblames.viable
  · intro c hc hne
    rw [Nat.add_assoc, htake, viable_comma_iff hliteral]
    exact hblames.char c (hget.symm.trans hc) hne
  · intro hsign hlt
    rw [Nat.add_assoc, htake, viable_comma_iff hliteral]
    rw [hlength, Nat.add_assoc, Nat.add_lt_add_iff_left] at hlt
    exact hblames.sign (hget.symm.trans hsign) hlt

/-- **The reader of a body stops where the body goes wrong**, and quotes it from there on. -/
theorem literals_blames (hread : literals position done cs = .error (.malformed e)) :
    ∃ k, e.position = position + k ∧ Blames cs k ∧
      e.excerpt = String.ofList ((cs.drop k).take 16) := by
  fun_induction literals position done cs with
  | case1 position done cs hnone =>
    cases hread
    exact ⟨0, rfl, .of_scan?_eq_none hnone, rfl⟩
  | case2 | case3 => cases hread
  | case4 position done cs scan hscan _ more hrest ih =>
    obtain ⟨l, hliteral, rfl, hwidth, -⟩ := Numeral.scan?_eq_some_iff.1 hscan
    obtain ⟨k, hposition, hblames, hexcerpt⟩ := ih hread
    refine ⟨l.length + 1 + k, ?_, ?_, ?_⟩
    · rw [hposition, hwidth]
      omega
    · rw [hrest]
      exact hblames.behind_comma hliteral
    · rw [hexcerpt, hrest, Nat.add_assoc, List.drop_length_add_append, Nat.add_comm 1 k,
        List.drop_succ_cons]
  | case5 position done cs scan hscan _ c more hrest hcomma =>
    cases hread
    obtain ⟨l, hliteral, rfl, hwidth, -, hstop⟩ := Numeral.scan?_eq_some_iff.1 hscan
    rw [hrest] at hstop ⊢
    refine ⟨l.length, congrArg (position + ·) hwidth, ?_, ?_⟩
    · exact .of_unexpected hliteral (Numeral.noDigit_cons_iff.1 hstop) hcomma
    · rw [List.drop_left]
      rfl

/-! ### Parse errors -/

/-- One terminator is dropped, the longest there is. -/
theorem stripped_body (cs : List Char) : Stripped cs (body cs) := by
  have hback {rest : List Char} (hrev : cs.reverse = rest) : cs = rest.reverse := by
    rw [← hrev, List.reverse_reverse]
  unfold body
  split
  · rename_i front hfront
    rw [hback hfront, List.reverse_cons, List.reverse_cons, List.append_assoc]
    exact .crlf front.reverse
  · rename_i front hno hfront
    rw [hback hfront, List.reverse_cons]
    refine .lf fun hlast => ?_
    rw [List.getLast?_reverse] at hlast
    obtain ⟨front', rfl⟩ := List.head?_eq_some_iff.1 hlast
    exact hno front' rfl
  · rename_i _ hno
    refine .none fun hlast => ?_
    rw [← List.head?_reverse] at hlast
    obtain ⟨front, hfront⟩ := List.head?_eq_some_iff.1 hlast
    exact hno front hfront

/-- **A parse error points at the first wrong character.**  With one line terminator dropped from
    the text, what stands before the place of the error can be completed to a body, and no body
    begins with what stands there; the error quotes the text from that place on. -/
theorem parse_error_position (text : String) (e : ParseError)
    (herror : parse text = .error (.malformed e)) :
    let b := body text.toList
    Stripped text.toList b ∧ Blames b e.position ∧
      e.excerpt = String.ofList ((b.drop e.position).take 16) := by
  intro b
  refine ⟨stripped_body _, ?_⟩
  have hread : literals 0 [] b = .error (.malformed e) := by
    unfold parse parseChars at herror
    split at herror
    · cases herror
    · exact herror
  obtain ⟨k, hposition, hblames, hexcerpt⟩ := literals_blames hread
  rw [Nat.zero_add] at hposition
  rw [hposition]
  exact ⟨hblames, hexcerpt⟩

/-- A sign that no digit follows, behind a comma and before the end of the line. -/
theorem parse_error_position_of_lone_sign :
    parse "12,-,3\r\n" = .error (.malformed ⟨3, .expectedInteger, "-,3"⟩) ∧
      Blames "12,-,3".toList 3 ∧ Viable "12,".toList ∧ ¬Viable "12,-,".toList := by
  have herror : parse "12,-,3\r\n" = .error (.malformed ⟨3, .expectedInteger, "-,3"⟩) := by
    decide +kernel
  obtain ⟨-, hblames, -⟩ := parse_error_position _ _ herror
  exact ⟨herror, hblames, hblames.viable, hblames.sign (by decide) (by decide)⟩

end Intcode.Program
