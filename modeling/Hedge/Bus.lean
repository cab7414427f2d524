import Hedge.Core.Types

/-!
# The cross-process symbol table

Reference: `hedge-bus/src/symbol_table.rs`.
-/

namespace Hedge.Bus

/-- `symbol_id_for`: the stable id of a trading symbol, `0` when the symbol is unknown. -/
def symbolIdFor (sym : String) : UInt32 :=
  match sym with
  | "RELIANCE" => 1
  | "INFY" => 2
  | "SBIN" => 3
  | "HDFCBANK" => 4
  | "ICICIBANK" => 5
  | "NSE_INDEX|Nifty 50" => 6
  | "NSE_INDEX|Nifty Bank" => 7
  | "NSE_INDEX|Nifty Next 50" => 8
  | "NSE_INDEX|Nifty Fin Service" => 9
  | "NSE_INDEX|Nifty 100" => 10
  | _ => 0

/-- `symbol_for_id`: the inverse mapping. -/
def symbolForId (id : UInt32) : Option String :=
  match id with
  | 1 => some "RELIANCE"
  | 2 => some "INFY"
  | 3 => some "SBIN"
  | 4 => some "HDFCBANK"
  | 5 => some "ICICIBANK"
  | 6 => some "NSE_INDEX|Nifty 50"
  | 7 => some "NSE_INDEX|Nifty Bank"
  | 8 => some "NSE_INDEX|Nifty Next 50"
  | 9 => some "NSE_INDEX|Nifty Fin Service"
  | 10 => some "NSE_INDEX|Nifty 100"
  | _ => none

/-- The two directions of the table agree on the symbols it knows. -/
theorem symbolForId_symbolIdFor {sym : String} (h : symbolIdFor sym ≠ 0) :
    symbolForId (symbolIdFor sym) = some sym := by
  unfold symbolIdFor at h ⊢
  split at h <;> first | rfl | exact absurd rfl h

end Hedge.Bus
