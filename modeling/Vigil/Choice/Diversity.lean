import Vigil.Scalar
/-!
# Diversity

The diversity of scores is the entropy of their histogram over bins of equal
width, relative to the greatest entropy that so many scores can reach.  The top
bin is closed, so that a score of one shares it.
-/

namespace Vigil.Diversity

variable {α : Type} [Scalar α]

def defaultBins : Nat := 10

/-- The bin of a score: the whole part of its multiple, never past the last bin. -/
def binIndex (score : α) (bins : Nat) : Nat :=
  min (Scalar.floor (score * (bins : α))) (bins - 1)

def histogram (bins : Nat) (scores : List α) : Array Nat :=
  scores.foldl (fun counts score => counts.modify (binIndex score bins) (· + 1))
    (Array.replicate bins 0)

/-- The Shannon entropy in nats.  Outcomes of probability zero contribute nothing. -/
def shannonEntropy (probabilities : List α) : α :=
  Scalar.sum <| (probabilities.filter fun p => decide (Scalar.zero < p)).map fun p =>
    -p * Scalar.log p

/-- The entropy relative to that of `ceiling` equally likely outcomes. -/
def normalizedEntropy (probabilities : List α) (ceiling : Nat) : α :=
  if ceiling ≤ 1 then Scalar.zero
  else Scalar.clampUnit (shannonEntropy probabilities / Scalar.log (ceiling : α))

def shares (bins : Nat) (scores : List α) : List α :=
  (histogram bins scores).toList.map fun (count : Nat) => (count : α) / (scores.length : α)

def scoreDiversity (scores : List α) (bins : Nat) : α :=
  let ceiling := min scores.length bins
  if ceiling ≤ 1 then Scalar.zero else normalizedEntropy (shares bins scores) ceiling

theorem binIndex_lt (score : α) {bins : Nat} (h : 0 < bins) : binIndex score bins < bins := by
  unfold binIndex
  omega

omit [Scalar α] in
theorem size_foldl_modify (f : α → Nat) (scores : List α) (counts : Array Nat) :
    (scores.foldl (fun counts score => counts.modify (f score) (· + 1)) counts).size =
      counts.size := by
  induction scores generalizing counts with
  | nil => rfl
  | cons s ss ih => simp [ih]

@[simp] theorem size_histogram (bins : Nat) (scores : List α) :
    (histogram bins scores).size = bins := by
  simp [histogram, size_foldl_modify]

end Vigil.Diversity
