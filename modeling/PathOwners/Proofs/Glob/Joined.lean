import PathOwners.Proofs.Glob.Behind
import PathOwners.Proofs.Glob.Crossing
import PathOwners.Proofs.Glob.Separators

/-!
# Texts joined by a separator

A text and a separator are scanned without regard to what stands behind them, and what stands behind them as if nothing
stood in front: the scan of the whole is put together from the scans of the two texts (`scan_separator`). Only stars
that are all of the last segment of the first text are read otherwise, as they are followed by more now: they take the
separator with them (`withSeparator`).
-/

namespace PathOwners.Glob

open Text

/-- The tokens of a text with a separator behind it: any path at its end becomes any directories. -/
def withSeparator (tokens : List Token) : List Token :=
  match tokens.getLast? with
  | some .anyPath => tokens.dropLast ++ [.anyDirectories]
  | _ => tokens ++ [.separator]

/-- What a scan finds in two texts with a separator between them. -/
def Scanned.joined (left right : Scanned) : Scanned :=
  ⟨withSeparator left.tokens ++ right.tokens, left.doubleStar || right.doubleStar⟩

variable {tokens : List Token} {text front : List Char} {scanned : Scanned}

theorem withSeparator_concat_anyPath (tokens : List Token) :
    withSeparator (tokens ++ [.anyPath]) = tokens ++ [.anyDirectories] := by
  simp [withSeparator]

theorem withSeparator_of_ne (h : tokens.getLast? ≠ some .anyPath) : withSeparator tokens = tokens ++ [.separator] := by
  unfold withSeparator
  split
  · next hlast => exact absurd hlast h
  · rfl

/-- A separator behind stars that may be a segment makes them any directories, and stands by itself behind others. -/
theorem withSeparator_finalTokens (h : .anyPath ∉ tokens) (st : Stance) : withSeparator (tokens ++ st.finalTokens) =
    tokens ++ if st.mayBeSegment then [.anyDirectories] else st.starTokens ++ [.separator] := by
  unfold Stance.finalTokens
  split_ifs
  · exact withSeparator_concat_anyPath tokens
  · rw [← List.append_assoc]
    refine withSeparator_of_ne fun hlast => ?_
    have hmem := List.mem_of_getLast? hlast
    unfold Stance.starTokens at hmem
    split_ifs at hmem <;> simp [h] at hmem

namespace ScanState

variable {s t : ScanState} {c : Char} {cs : List Char}

theorem offset_of_step (hstep : s.step c = .ok t) : t.offset = s.offset + c.utf8Size := by
  obtain ⟨u, -, rfl⟩ := Except.map_eq_ok_iff.mp hstep
  rfl

theorem offset_of_run : ∀ {cs : List Char} {s : ScanState}, s.run cs = .ok t → t.offset = s.offset + byteLength cs
  | [], s, hrun => by
    obtain rfl : s = t := Except.ok.inj hrun
    rfl
  | c :: cs, s, hrun => by
    obtain ⟨s', hstep, hrun⟩ := run_cons_eq_ok_iff.mp hrun
    rw [offset_of_run hrun, offset_of_step hstep, byteLength_cons, Nat.add_assoc]

end ScanState

/-- A text that scans ends between two parts, unless a backslash at its end escapes nothing. -/
theorem exists_run_between (hscan : scan text = .ok scanned) (hescapes : none ∉ escapes text) :
    ∃ s, ScanState.run {} text = .ok s ∧ s.Between ∧ s.finish = .ok scanned := by
  obtain ⟨s, hrun, hfinish⟩ := scan_eq_ok_iff.mp hscan
  obtain ⟨⟨-, hmode⟩, -⟩ := ScanState.finish_eq_ok_iff.mp hfinish
  have hpending : s.pending = false := Bool.eq_false_iff.mpr (mt (ScanState.pending_of_run_iff hrun).mp hescapes)
  exact ⟨s, hrun, ScanState.between_of_not_pending hmode hpending, hfinish⟩

/-- A separator behind a text that scans begins a segment. -/
theorem exists_run_separator (hscan : scan text = .ok scanned) (hescapes : none ∉ escapes text) :
    ∃ s, ScanState.run {} (text ++ ['/']) = .ok s ∧ s.AtSegment ∧ s.tokens.reverse = withSeparator scanned.tokens ∧
      s.doubleStar = scanned.doubleStar := by
  obtain ⟨s, hrun, hbetween, hfinish⟩ := exists_run_between hscan hescapes
  obtain ⟨⟨hgroups, -⟩, rfl⟩ := ScanState.finish_eq_ok_iff.mp hfinish
  obtain ⟨st, hst⟩ := hbetween.exists_stands
  obtain ⟨t, hseparator, hread⟩ := ScanState.run_separator hst
  have hstep : s.step '/' = .ok t := (ScanState.run_singleton s '/').symm.trans hseparator
  have hrun' : ScanState.run {} (text ++ ['/']) = .ok t := ScanState.run_append_eq_ok_iff.mpr ⟨s, hrun, hseparator⟩
  refine ⟨t, hrun', ⟨hread.stands, hread.groups.trans hgroups⟩, ?_, ?_⟩
  · have hpath : .anyPath ∉ s.tokens.reverse := fun h =>
      (ScanState.placed_of_run hrun).tokens.goesOn (List.mem_reverse.mp h)
    rw [ScanState.finalTokens_of_stands hst, List.reverse_append, List.reverse_reverse, withSeparator_finalTokens hpath,
      hread.tokens, List.reverse_append, List.reverse_reverse]
  · have hmode : t.mode = .text := hread.stands.mode
    exact Bool.eq_iff_iff.mpr (by simpa [hmode] using ScanState.doubleStar_of_step hstep)

/-- **Texts with a separator between them are scanned one by one.** If the first one scans and escapes no character
behind it, then what the whole comes to is what the second one comes to: the tokens of both with the separator between
them, or the same error, as far behind as the first text and the separator are long. -/
theorem scan_separator (hfront : scan front = .ok scanned) (hescapes : none ∉ escapes front) (rest : List Char) :
    scan (front ++ '/' :: rest) =
      ((scan rest).mapError (Error.behind (byteLength front + 1))).map scanned.joined := by
  obtain ⟨s, hrun, hs, htokens, hdouble⟩ := exists_run_separator hfront hescapes
  have hoffset : s.offset = byteLength front + 1 := by
    rw [ScanState.offset_of_run hrun, byteLength_append]
    exact Nat.zero_add _
  have hjoined : Scanned.behind s = scanned.joined := by
    funext right
    rw [Scanned.behind, Scanned.joined, htokens, hdouble]
  rw [List.append_cons, scan_append hrun hs, hoffset, hjoined]

/-- Stars that end the first text, behind a character of two bytes: they take the separator with them, and a class that
stays open counts from the start of the whole. -/
theorem scan_separator_stars : ∃ scanned, scan "é\x7bx,y\x7d/**".toList = .ok scanned ∧
    none ∉ escapes "é\x7bx,y\x7d/**".toList ∧
    scan ("é\x7bx,y\x7d/**".toList ++ '/' :: "b".toList) = .ok
      ⟨[.literal 'é', .alternation [[.literal 'x'], [.literal 'y']], .separator, .anyDirectories, .literal 'b'], true⟩ ∧
    scan ("é\x7bx,y\x7d/**".toList ++ '/' :: "[".toList) = .error (.unclosedClass 11) := by
  have hscan : scan "é\x7bx,y\x7d/**".toList = .ok
      ⟨[.literal 'é', .alternation [[.literal 'x'], [.literal 'y']], .separator, .anyPath], true⟩ := rfl
  have hescapes : none ∉ escapes "é\x7bx,y\x7d/**".toList := by decide
  exact ⟨_, hscan, hescapes, scan_separator hscan hescapes "b".toList, scan_separator hscan hescapes "[".toList⟩

end PathOwners.Glob
