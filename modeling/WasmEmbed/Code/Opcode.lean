import WasmEmbed.Code.Instr
/-!
The numbers and the names of operators and of the instructions that access memory. The binary format
and the text format read the same tables.
-/

namespace WasmEmbed.Code

private def intCompares : List (String × IntCompare) :=
  [("eq", .eq), ("ne", .ne), ("lt_s", .ltS), ("lt_u", .ltU), ("gt_s", .gtS), ("gt_u", .gtU), ("le_s", .leS),
    ("le_u", .leU), ("ge_s", .geS), ("ge_u", .geU)]

private def floatCompares : List (String × FloatCompare) :=
  [("eq", .eq), ("ne", .ne), ("lt", .lt), ("gt", .gt), ("le", .le), ("ge", .ge)]

private def intUnaries : List (String × IntUnary) :=
  [("clz", .clz), ("ctz", .ctz), ("popcnt", .popcnt)]

private def intBinaries : List (String × IntBinary) :=
  [("add", .add), ("sub", .sub), ("mul", .mul), ("div_s", .divS), ("div_u", .divU), ("rem_s", .remS),
    ("rem_u", .remU), ("and", .and), ("or", .or), ("xor", .xor), ("shl", .shl), ("shr_s", .shrS),
    ("shr_u", .shrU), ("rotl", .rotl), ("rotr", .rotr)]

private def floatUnaries : List (String × FloatUnary) :=
  [("abs", .abs), ("neg", .neg), ("ceil", .ceil), ("floor", .floor), ("trunc", .trunc), ("nearest", .nearest),
    ("sqrt", .sqrt)]

private def floatBinaries : List (String × FloatBinary) :=
  [("add", .add), ("sub", .sub), ("mul", .mul), ("div", .div), ("min", .min), ("max", .max),
    ("copysign", .copysign)]

/-- Names under a common beginning, with what they name. -/
private def family {α β : Type} (start : String) (make : α → β) (members : List (String × α)) :
    List (String × β) :=
  members.map fun m => (start ++ m.1, make m.2)

private def intOps (t : String) (w : Width) : List (String × NumOp) :=
  family t (.intUnary w) intUnaries ++ family t (.intBinary w) intBinaries

private def floatOps (t : String) (w : Width) : List (String × NumOp) :=
  family t (.floatUnary w) floatUnaries ++ family t (.floatBinary w) floatBinaries

/-- Both signednesses, signed first. -/
private def signs {β : Type} (start : String) (make : Bool → β) : List (String × β) :=
  [(start ++ "_s", make true), (start ++ "_u", make false)]

/-- The number of the first numeric operator. -/
def firstNumOp : Nat := 0x45

/-- The numeric operators in the order of their numbers, which are consecutive. -/
def numOps : List (String × NumOp) :=
  List.flatten [
    [("i32.eqz", .intTest .w32)],
    family "i32." (.intCompare .w32) intCompares,
    [("i64.eqz", .intTest .w64)],
    family "i64." (.intCompare .w64) intCompares,
    family "f32." (.floatCompare .w32) floatCompares,
    family "f64." (.floatCompare .w64) floatCompares,
    intOps "i32." .w32,
    intOps "i64." .w64,
    floatOps "f32." .w32,
    floatOps "f64." .w64,
    [("i32.wrap_i64", .wrap)],
    signs "i32.trunc_f32" (.truncate .w32 .w32),
    signs "i32.trunc_f64" (.truncate .w32 .w64),
    signs "i64.extend_i32" .extend,
    signs "i64.trunc_f32" (.truncate .w64 .w32),
    signs "i64.trunc_f64" (.truncate .w64 .w64),
    signs "f32.convert_i32" (.convert .w32 .w32),
    signs "f32.convert_i64" (.convert .w32 .w64),
    [("f32.demote_f64", .demote)],
    signs "f64.convert_i32" (.convert .w64 .w32),
    signs "f64.convert_i64" (.convert .w64 .w64),
    [("f64.promote_f32", .promote), ("i32.reinterpret_f32", .reinterpretFloat .w32),
     ("i64.reinterpret_f64", .reinterpretFloat .w64), ("f32.reinterpret_i32", .reinterpretInt .w32),
     ("f64.reinterpret_i64", .reinterpretInt .w64), ("i32.extend8_s", .intUnary .w32 .extend8),
     ("i32.extend16_s", .intUnary .w32 .extend16), ("i64.extend8_s", .intUnary .w64 .extend8),
     ("i64.extend16_s", .intUnary .w64 .extend16), ("i64.extend32_s", .intUnary .w64 .extend32)]]

/-- The truncations that never trap, in the order of their numbers, from 0. -/
def saturatingOps : List (String × NumOp) :=
  signs "i32.trunc_sat_f32" (.truncateSat .w32 .w32) ++ signs "i32.trunc_sat_f64" (.truncateSat .w32 .w64)
    ++ signs "i64.trunc_sat_f32" (.truncateSat .w64 .w32) ++ signs "i64.trunc_sat_f64" (.truncateSat .w64 .w64)

/-- The number of the first load. -/
def firstLoad : Nat := 0x28

/-- The loads in the order of their numbers. -/
def loads : List (String × Access) :=
  [("i32.load", ⟨.i32, 4, false⟩), ("i64.load", ⟨.i64, 8, false⟩), ("f32.load", ⟨.f32, 4, false⟩),
    ("f64.load", ⟨.f64, 8, false⟩)]
    ++ signs "i32.load8" (⟨.i32, 1, ·⟩) ++ signs "i32.load16" (⟨.i32, 2, ·⟩)
    ++ signs "i64.load8" (⟨.i64, 1, ·⟩) ++ signs "i64.load16" (⟨.i64, 2, ·⟩) ++ signs "i64.load32" (⟨.i64, 4, ·⟩)

/-- The number of the first store. -/
def firstStore : Nat := 0x36

/-- The stores in the order of their numbers. -/
def stores : List (String × Access) :=
  [("i32.store", ⟨.i32, 4, false⟩), ("i64.store", ⟨.i64, 8, false⟩), ("f32.store", ⟨.f32, 4, false⟩),
    ("f64.store", ⟨.f64, 8, false⟩), ("i32.store8", ⟨.i32, 1, false⟩), ("i32.store16", ⟨.i32, 2, false⟩),
    ("i64.store8", ⟨.i64, 1, false⟩), ("i64.store16", ⟨.i64, 2, false⟩), ("i64.store32", ⟨.i64, 4, false⟩)]

/-- The number of lanes with their type. -/
def Lane.shape : Lane → String
  | i8 => "i8x16"
  | i16 => "i16x8"
  | i32 => "i32x4"
  | i64 => "i64x2"
  | f32 => "f32x4"
  | f64 => "f64x2"

private def both {β : Type} (start : String) (make : Bool → Bool → β) (operand : String) :
    List (String × β) :=
  [(start ++ "_low_" ++ operand ++ "_s", make false true), (start ++ "_high_" ++ operand ++ "_s", make true true),
    (start ++ "_low_" ++ operand ++ "_u", make false false), (start ++ "_high_" ++ operand ++ "_u", make true false)]

private def shifts (l : Lane) : List (String × VecOp) :=
  family (l.shape ++ ".") (.shift l) [("shl", .shl), ("shr_s", .shrS), ("shr_u", .shrU)]

private def minMax (l : Lane) : List (String × VecOp) :=
  signs (l.shape ++ ".min") (fun s => .intBinary l (.min s)) ++ signs (l.shape ++ ".max") (fun s => .intBinary l (.max s))

private def addSub (l : Lane) : List (String × VecOp) :=
  [(l.shape ++ ".add", .intBinary l .add)] ++ signs (l.shape ++ ".add_sat") (fun s => .intBinary l (.addSat s))
    ++ [(l.shape ++ ".sub", .intBinary l .sub)] ++ signs (l.shape ++ ".sub_sat") (fun s => .intBinary l (.subSat s))

private def floatArith (l : Lane) : List (String × VecOp) :=
  family (l.shape ++ ".") (fun op => .floatBinary l op false)
    [("add", .plain .add), ("sub", .plain .sub), ("mul", .plain .mul), ("div", .plain .div), ("min", .plain .min),
     ("max", .plain .max), ("pmin", .pmin), ("pmax", .pmax)]

private def relaxedMinMax (l : Lane) : List (String × VecOp) :=
  family (l.shape ++ ".relaxed_") (fun op => .floatBinary l op true) [("min", .plain .min), ("max", .plain .max)]

/-- The vector operators without immediate operands: runs of consecutive numbers, each with its
first number. -/
def vecOpRuns : List (Nat × List (String × VecOp)) :=
  [(14, List.flatten [
      [("i8x16.swizzle", .swizzle false)],
      [Lane.i8, .i16, .i32, .i64, .f32, .f64].map (fun l => (l.shape ++ ".splat", .splat l))]),
    (35, List.flatten [
      [Lane.i8, .i16, .i32].flatMap (fun l => family (l.shape ++ ".") (.intCompare l) intCompares),
      [Lane.f32, .f64].flatMap (fun l => family (l.shape ++ ".") (.floatCompare l) floatCompares),
      family "v128." .bitwise [("not", .not), ("and", .and), ("andnot", .andnot), ("or", .or), ("xor", .xor),
        ("bitselect", .bitselect)],
      [("v128.any_true", .anyTrue)]]),
    (94, List.flatten [
      [("f32x4.demote_f64x2_zero", .demoteZero), ("f64x2.promote_low_f32x4", .promoteLow),
       ("i8x16.abs", .intUnary .i8 .abs), ("i8x16.neg", .intUnary .i8 .neg), ("i8x16.popcnt", .intUnary .i8 .popcnt),
       ("i8x16.all_true", .allTrue .i8), ("i8x16.bitmask", .bitmask .i8)],
      signs "i8x16.narrow_i16x8" (.narrow .i16),
      [("f32x4.ceil", .floatUnary .f32 .ceil), ("f32x4.floor", .floatUnary .f32 .floor),
       ("f32x4.trunc", .floatUnary .f32 .trunc), ("f32x4.nearest", .floatUnary .f32 .nearest)],
      shifts .i8,
      addSub .i8,
      [("f64x2.ceil", .floatUnary .f64 .ceil), ("f64x2.floor", .floatUnary .f64 .floor)],
      minMax .i8,
      [("f64x2.trunc", .floatUnary .f64 .trunc), ("i8x16.avgr_u", .intBinary .i8 .avgr)],
      signs "i16x8.extadd_pairwise_i8x16" (.extAddPairwise .i8),
      signs "i32x4.extadd_pairwise_i16x8" (.extAddPairwise .i16),
      [("i16x8.abs", .intUnary .i16 .abs), ("i16x8.neg", .intUnary .i16 .neg),
       ("i16x8.q15mulr_sat_s", .q15mulrSat false), ("i16x8.all_true", .allTrue .i16),
       ("i16x8.bitmask", .bitmask .i16)],
      signs "i16x8.narrow_i32x4" (.narrow .i32),
      both "i16x8.extend" (.extend .i8) "i8x16",
      shifts .i16,
      addSub .i16,
      [("f64x2.nearest", .floatUnary .f64 .nearest), ("i16x8.mul", .intBinary .i16 .mul)],
      minMax .i16]),
    (155, List.flatten [
      [("i16x8.avgr_u", .intBinary .i16 .avgr)],
      both "i16x8.extmul" (.extMul .i8) "i8x16",
      [("i32x4.abs", .intUnary .i32 .abs), ("i32x4.neg", .intUnary .i32 .neg)]]),
    (163, [("i32x4.all_true", .allTrue .i32), ("i32x4.bitmask", .bitmask .i32)]),
    (167, List.flatten [
      both "i32x4.extend" (.extend .i16) "i16x8",
      shifts .i32,
      [("i32x4.add", .intBinary .i32 .add)]]),
    (177, [("i32x4.sub", .intBinary .i32 .sub)]),
    (181, List.flatten [
      [("i32x4.mul", .intBinary .i32 .mul)],
      minMax .i32,
      [("i32x4.dot_i16x8_s", .dot)]]),
    (188, List.flatten [
      both "i32x4.extmul" (.extMul .i16) "i16x8",
      [("i64x2.abs", .intUnary .i64 .abs), ("i64x2.neg", .intUnary .i64 .neg)]]),
    (195, [("i64x2.all_true", .allTrue .i64), ("i64x2.bitmask", .bitmask .i64)]),
    (199, List.flatten [
      both "i64x2.extend" (.extend .i32) "i32x4",
      shifts .i64,
      [("i64x2.add", .intBinary .i64 .add)]]),
    (209, [("i64x2.sub", .intBinary .i64 .sub)]),
    (213, List.flatten [
      [("i64x2.mul", .intBinary .i64 .mul)],
      family "i64x2." (.intCompare .i64) [("eq", .eq), ("ne", .ne), ("lt_s", .ltS), ("gt_s", .gtS), ("le_s", .leS),
        ("ge_s", .geS)],
      both "i64x2.extmul" (.extMul .i32) "i32x4",
      [("f32x4.abs", .floatUnary .f32 .abs), ("f32x4.neg", .floatUnary .f32 .neg)]]),
    (227, List.flatten [
      [("f32x4.sqrt", .floatUnary .f32 .sqrt)],
      floatArith .f32,
      [("f64x2.abs", .floatUnary .f64 .abs), ("f64x2.neg", .floatUnary .f64 .neg)]]),
    (239, List.flatten [
      [("f64x2.sqrt", .floatUnary .f64 .sqrt)],
      floatArith .f64,
      signs "i32x4.trunc_sat_f32x4" (.truncSat · false),
      signs "f32x4.convert_i32x4" .convert,
      [("i32x4.trunc_sat_f64x2_s_zero", .truncSatZero true false),
       ("i32x4.trunc_sat_f64x2_u_zero", .truncSatZero false false)],
      signs "f64x2.convert_low_i32x4" .convertLow,
      [("i8x16.relaxed_swizzle", .swizzle true)],
      signs "i32x4.relaxed_trunc_f32x4" (.truncSat · true),
      [("i32x4.relaxed_trunc_f64x2_s_zero", .truncSatZero true true),
       ("i32x4.relaxed_trunc_f64x2_u_zero", .truncSatZero false true), ("f32x4.relaxed_madd", .madd .f32 false),
       ("f32x4.relaxed_nmadd", .madd .f32 true), ("f64x2.relaxed_madd", .madd .f64 false),
       ("f64x2.relaxed_nmadd", .madd .f64 true)],
      [Lane.i8, .i16, .i32, .i64].map (fun l => (l.shape ++ ".relaxed_laneselect", .laneselect l)),
      relaxedMinMax .f32,
      relaxedMinMax .f64,
      [("i16x8.relaxed_q15mulr_s", .q15mulrSat true), ("i16x8.relaxed_dot_i8x16_i7x16_s", .dot7),
       ("i32x4.relaxed_dot_i8x16_i7x16_add_s", .dot7Add)]])]

/-- The vector operators without immediate operands, with their numbers. -/
def vecOps : List (Nat × String × VecOp) :=
  vecOpRuns.flatMap fun r => r.2.zipIdx.map fun m => (r.1 + m.2, m.1)

/-- The vector operators that name a lane, with their numbers. -/
def laneOps : List (Nat × String × (Nat → VecOp)) :=
  [(21, "i8x16.extract_lane_s", .extractLane .i8 true), (22, "i8x16.extract_lane_u", .extractLane .i8 false),
    (23, "i8x16.replace_lane", .replaceLane .i8), (24, "i16x8.extract_lane_s", .extractLane .i16 true),
    (25, "i16x8.extract_lane_u", .extractLane .i16 false), (26, "i16x8.replace_lane", .replaceLane .i16),
    (27, "i32x4.extract_lane", .extractLane .i32 false), (28, "i32x4.replace_lane", .replaceLane .i32),
    (29, "i64x2.extract_lane", .extractLane .i64 false), (30, "i64x2.replace_lane", .replaceLane .i64),
    (31, "f32x4.extract_lane", .extractLane .f32 false), (32, "f32x4.replace_lane", .replaceLane .f32),
    (33, "f64x2.extract_lane", .extractLane .f64 false), (34, "f64x2.replace_lane", .replaceLane .f64)]

/-- The loads of vectors, with their numbers. -/
def vecLoads : List (Nat × String × VecLoad) :=
  [(0, "v128.load", .full), (1, "v128.load8x8_s", .extend .i8 true), (2, "v128.load8x8_u", .extend .i8 false),
    (3, "v128.load16x4_s", .extend .i16 true), (4, "v128.load16x4_u", .extend .i16 false),
    (5, "v128.load32x2_s", .extend .i32 true), (6, "v128.load32x2_u", .extend .i32 false),
    (7, "v128.load8_splat", .splat .i8), (8, "v128.load16_splat", .splat .i16), (9, "v128.load32_splat", .splat .i32),
    (10, "v128.load64_splat", .splat .i64), (92, "v128.load32_zero", .zero .i32), (93, "v128.load64_zero", .zero .i64)]

/-- The loads into one lane, with their numbers. -/
def laneLoads : List (Nat × String × Lane) :=
  [(84, "v128.load8_lane", .i8), (85, "v128.load16_lane", .i16), (86, "v128.load32_lane", .i32),
    (87, "v128.load64_lane", .i64)]

/-- The stores of one lane, with their numbers. -/
def laneStores : List (Nat × String × Lane) :=
  [(88, "v128.store8_lane", .i8), (89, "v128.store16_lane", .i16), (90, "v128.store32_lane", .i32),
    (91, "v128.store64_lane", .i64)]

/-- What a table of numbered things holds under a number. -/
def lookupNumber {α : Type} (table : List (Nat × String × α)) (code : Nat) : Option α :=
  (table.find? fun r => r.1 == code).map (·.2.2)

end WasmEmbed.Code
