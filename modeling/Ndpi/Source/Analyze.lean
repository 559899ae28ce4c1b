import Mathlib.Data.List.Induction

/-!
# Data analysis

`ndpi_analyze.c:40-145,175-187` and `ndpi_typedefs.h:2028-2037`: the running sums and extremes
of a series, with a window of its last values. Allocations succeed.
-/
namespace Ndpi.Source.Analyze

/-- `struct ndpi_analyze_struct`; the array of values is listed. -/
structure AnalyzeStruct where
  values : List UInt64
  minVal : UInt64
  maxVal : UInt64
  sumTotal : UInt64
  jitterTotal : UInt64
  numDataEntries : UInt32
  nextValueInsertIndex : Nat
  sumSquareTotal : UInt64

/-- All zero, with a window of this length. -/
def zeroed (numValuesArrayLen : Nat) : AnalyzeStruct :=
  ⟨List.replicate numValuesArrayLen 0, 0, 0, 0, 0, 0, 0, 0⟩

/-- `ndpi_init_data_analysis`. -/
def initDataAnalysis (maxSeriesLen : Nat) : AnalyzeStruct := zeroed (min maxSeriesLen 512)

/-- `ndpi_reset_data_analysis`. -/
def resetDataAnalysis (d : AnalyzeStruct) : AnalyzeStruct := zeroed d.values.length

/-- `ndpi_data_last`. -/
def dataLast (s : AnalyzeStruct) : UInt64 :=
  if s.numDataEntries = 0 ∨ s.values.length = 0 then 0
  else if s.nextValueInsertIndex = 0 then s.values[s.values.length - 1]?.getD 0
  else s.values[s.nextValueInsertIndex - 1]?.getD 0

def distance (last value : UInt64) : UInt64 := if last > value then last - value else value - last

/-- `ndpi_data_add_value`. -/
def dataAddValue (s : AnalyzeStruct) (value : UInt64) : AnalyzeStruct :=
  let next := s.nextValueInsertIndex + 1
  { values := s.values.set s.nextValueInsertIndex value
    minVal := if s.sumTotal = 0 ∨ value < s.minVal then value else s.minVal
    maxVal := if s.sumTotal = 0 ∨ value > s.maxVal then value else s.maxVal
    sumTotal := s.sumTotal + value
    jitterTotal := s.jitterTotal +
      if s.numDataEntries = 0 then 0 else distance (dataLast s) value
    numDataEntries := s.numDataEntries + 1
    nextValueInsertIndex := if s.values.length = 0 then s.nextValueInsertIndex
      else if next = s.values.length then 0 else next
    sumSquareTotal := s.sumSquareTotal + value * value }

end Ndpi.Source.Analyze
