import LinkedProof.KeyFile
import LinkedProof.Proofs.Action
import LinkedProof.Proofs.AlgorithmBinding

/-! The curves of the keys that files hold. In whatever form a file tells the curve of its key, the
key lies on one of the curves whose arithmetic is at hand. -/
namespace LinkedProof

/-- The scalars that keys are made of, and the one key of each of them. -/
theorem PrivateKey.ofScalar?_eq_some {c : Curve} {n : Nat} {key : PrivateKey} :
    ofScalar? c n = some key ↔ 0 < n ∧ n < c.n ∧ key.scalar = n ∧ key.curve = c := by
  unfold ofScalar?
  constructor
  · intro made
    split at made
    · rename_i inside
      rw [Bool.and_eq_true, decide_eq_true_eq, decide_eq_true_eq] at inside
      split at made
      · rename_i q found
        obtain rfl := Option.some.inj made
        exact ⟨inside.1, inside.2, rfl, curve_ofScalar? found⟩
      · cases made
    · cases made
  · rintro ⟨positive, below, rfl, rfl⟩
    have point : CurvePoint.ofScalar? key.curve key.scalar = some key.point := key.multiple
    rw [if_pos (by rw [decide_eq_true positive, decide_eq_true below]; rfl)]
    split
    · rename_i q found
      obtain rfl := Option.some.inj (point.symm.trans found)
      rfl
    · rename_i missing
      cases point.symm.trans missing

/-- An entry that a curve at hand leads to is one of this very curve. -/
theorem CurveTable.ofCurve_available {table : CurveTable} {c : Curve} {e : CurveEntry}
    (listed : c ∈ Curve.available) (found : table.ofCurve c.name = .ok e) :
    e.curve.curve = .ok c := by
  have shared : e.curve.name = c.name := by
    simpa using List.find?_some (CurveTable.ofCurve_ok.mp found)
  rw [CurveLabel.curve, shared, Curve.ofName?_name listed]

namespace KeyFile

variable {key : PrivateKey} {bytes : Bytes} {c : Curve}

theorem Domain.curve?_available {d : Domain} (found : d.curve? = some c) :
    c ∈ Curve.available := by
  have each : ∀ known ∈ Domain.known, known.1 ∈ Curve.available := by
    simp [Domain.known, Curve.available]
  obtain ⟨known, first, rfl⟩ := Option.map_eq_some_iff.mp found
  exact each known (List.mem_of_find?_eq_some first)

theorem Parameters.curve?_available {p : Parameters} (found : p.curve? = some c) :
    c ∈ Curve.available := by
  cases p with
  | named oid =>
    have all : curveOids.map (·.1) = Curve.available := rfl
    obtain ⟨known, first, rfl⟩ := Option.map_eq_some_iff.mp found
    exact all ▸ List.mem_map_of_mem (List.mem_of_find?_eq_some first)
  | implicit => cases found
  | explicit domain => exact Domain.curve?_available found

theorem CurveKey.toKey_available {outer : Option Parameters} {k : CurveKey}
    (read : k.toKey outer = .ok key) : key.curve ∈ Curve.available := by
  unfold CurveKey.toKey at read
  dsimp only at read
  obtain ⟨_, read⟩ := guard_ok.mp read
  obtain ⟨parameters, _, read⟩ := bind_ok.mp read
  split at read
  · rename_i curve found
    obtain ⟨_, read⟩ := guard_ok.mp read
    obtain ⟨_, read⟩ := guard_ok.mp read
    split at read
    · rename_i made
      split at read
      · obtain rfl := Except.ok.inj read
        rw [(PrivateKey.ofScalar?_eq_some.mp made).2.2.2]
        exact Parameters.curve?_available found
      · cases read
    · cases read
  · cases read

theorem CurveKey.keyOf_available {outer : Option Parameters}
    (read : CurveKey.keyOf outer bytes = .ok key) : key.curve ∈ Curve.available := by
  unfold CurveKey.keyOf at read
  split at read
  · exact toKey_available read
  · cases read

private theorem keyOf_loaded {outer : Option Parameters}
    (loaded : Loaded.curveKey <$> CurveKey.keyOf outer bytes = .ok (.curveKey key)) :
    key.curve ∈ Curve.available := by
  cases read : CurveKey.keyOf outer bytes with
  | error fault =>
    rw [read] at loaded
    cases loaded
  | ok found =>
    rw [read] at loaded
    obtain rfl := Loaded.curveKey.inj (Except.ok.inj loaded)
    exact CurveKey.keyOf_available read

private theorem readRsa_curveKey : Container.readRsa bytes ≠ .ok (.curveKey key) := by
  intro loaded
  obtain ⟨_, _, loaded⟩ := bind_ok.mp loaded
  obtain ⟨_, done⟩ := guard_ok.mp loaded
  cases done

private theorem readDsa_curveKey : Container.readDsa bytes ≠ .ok (.curveKey key) := by
  intro loaded
  obtain ⟨_, _, loaded⟩ := bind_ok.mp loaded
  obtain ⟨_, done⟩ := guard_ok.mp loaded
  cases done

theorem Container.load_available {container : Container}
    (loaded : container.load = .ok (.curveKey key)) : key.curve ∈ Curve.available := by
  unfold Container.load at loaded
  dsimp only at loaded
  obtain ⟨_, loaded⟩ := guard_ok.mp loaded
  split at loaded
  · exact keyOf_loaded loaded
  · exact absurd loaded readRsa_curveKey
  · obtain ⟨_, _, done⟩ := bind_ok.mp loaded
    cases done
  · obtain ⟨_, _, loaded⟩ := bind_ok.mp loaded
    split at loaded <;> cases loaded
  · cases loaded

private theorem load_available {form : Form} {password : Option Text}
    (loaded : load form bytes password = .ok (.curveKey key)) : key.curve ∈ Curve.available := by
  cases form with
  | container =>
    obtain ⟨container, _, loaded⟩ := bind_ok.mp loaded
    exact Container.load_available loaded
  | encrypted =>
    obtain ⟨_, _, stopped⟩ := bind_ok.mp loaded
    cases stopped
  | curveKey => exact keyOf_loaded loaded
  | rsa => exact absurd loaded readRsa_curveKey
  | dsa => exact absurd loaded readDsa_curveKey

/-- The key of a curve that a file holds lies on a curve at hand. -/
theorem read_available {password : Option Text}
    (loaded : read bytes password = .ok (.curveKey key)) : key.curve ∈ Curve.available := by
  obtain ⟨blocks, _, loaded⟩ := bind_ok.mp loaded
  split at loaded
  · obtain ⟨_, _, loaded⟩ := bind_ok.mp loaded
    obtain ⟨found, inside, checked⟩ := bind_ok.mp loaded
    obtain ⟨_, checked⟩ := guard_ok.mp checked
    cases found with
    | curveKey key' =>
      obtain rfl := Loaded.curveKey.inj (Except.ok.inj checked)
      exact load_available inside
    | rsaKey numbers =>
      rw [check] at checked
      split at checked <;> cases checked
    | otherKey kind => cases checked
  · cases loaded

end KeyFile

end LinkedProof
