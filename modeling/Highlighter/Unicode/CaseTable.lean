/-!
Letters that differ only in case, and the lowercase of every letter that has
one.  A run is its first code point and the distance to the other letter, in
hexadecimal.  The number of its members stands behind the first, after a star if
they follow one another and after a stroke if every other code point is one.
-/
namespace Highlighter.Unicode

/-- Pairs of letters that differ only in case, by the smaller of the two. -/
def foldingPairs : String :=
  String.join
    [ "41*a 20 4c*7 20 54*7 20 c0*5 20 c6*11 20 d8*7 20 df 1dbf ff 79 100/18 1 132/3 1 139/8 1 ",
      "14a/17 1 179/3 1 180 c3 181 d2 182/2 1 186 ce 187 1 189*2 cd 18b 1 18e 4f 18f ca 190 cb ",
      "191 1 193 cd 194 cf 195 61 196 d3 197 d1 198 1 19a a3 19b a641 19c d3 19d d5 19e 82 ",
      "19f d6 1a0/3 1 1a6 da 1a7 1 1a9 da 1ac 1 1ae da 1af 1 1b1*2 d9 1b3/2 1 1b7 db 1b8 1 1bc 1 ",
      "1bf 38 1cd/8 1 1de/9 1 1f4 1 1f8/14 1 222/9 1 23a 2a2b 23b 1 23e 2a28 23f*2 2a3f 241 1 ",
      "244 45 245 47 246/5 1 250 2a1f 251 2a1c 252 2a1e 25c a54f 261 a54b 264 a567 265 a528 ",
      "266 a544 26a a544 26b 29f7 26c a541 271 29fd 27d 29e7 282 a543 287 a52a 29d a515 29e a512 ",
      "370/2 1 376 1 37b*3 82 37f 74 386 26 388*3 25 38c 40 38e*2 3f 390 1c43 391/2 20 394/2 20 ",
      "397 20 39b/2 20 39e*2 20 3a4*2 20 3a7*2 20 3aa*2 20 3b0 1c33 3cf 8 3d8/c 1 3f2 7 3f7 1 ",
      "3fa 1 400*10 50 410*2 20 413/2 20 416*8 20 41f*2 20 423*7 20 42b*5 20 460 1 464/f 1 ",
      "48a/1b 1 4c0 f 4c1/7 1 4d0/30 1 531*26 30 10a0*26 1c60 10c7 1c60 10cd 1c60 10d0*2b bc0 ",
      "10fd*3 bc0 13a0*50 97d0 13f0*6 8 1c89 1 1d79 8a04 1d7d ee6 1d8e 8a38 1e00/30 1 1e62/1a 1 ",
      "1ea0/30 1 1f00*8 8 1f10*6 8 1f20*8 8 1f30*8 8 1f40*6 8 1f51/4 8 1f60*8 8 1f70*2 4a ",
      "1f72*4 56 1f76*2 64 1f78*2 80 1f7a*2 70 1f7c*2 7e 1f80*8 8 1f90*8 8 1fa0*8 8 1fb0*2 8 ",
      "1fb3 9 1fc3 9 1fd0*2 8 1fe0*2 8 1fe5 7 1ff3 9 2132 1c 2160*10 10 2183 1 24b6*1a 1a ",
      "2c00*30 30 2c60 1 2c67/3 1 2c72 1 2c75 1 2c80/32 1 2ceb/2 1 2cf2 1 a640/5 1 a64c/11 1 ",
      "a680/e 1 a722/7 1 a732/1f 1 a779/2 1 a77e/5 1 a78b 1 a790/2 1 a794 30 a796/a 1 a7b3 3a0 ",
      "a7b4/8 1 a7c7/2 1 a7cc/8 1 a7f5 1 fb05 1 ff21*1a 20 10400*28 28 104b0*24 28 10570*b 27 ",
      "1057c*f 27 1058c*7 27 10594*2 27 10c80*33 40 10d50*16 20 118a0*20 20 16e40*20 20 ",
      "16ea0*19 1b 1e900*22 22" ]

/-- Groups of more than two letters that differ only in case. -/
def foldingGroups : String :=
  String.join
    [ "4b 6b 212a;53 73 17f;b5 39c 3bc;c5 e5 212b;1c4 1c5 1c6;1c7 1c8 1c9;1ca 1cb 1cc;",
      "1f1 1f2 1f3;345 399 3b9 1fbe;392 3b2 3d0;395 3b5 3f5;398 3b8 3d1 3f4;39a 3ba 3f0;",
      "3a0 3c0 3d6;3a1 3c1 3f1;3a3 3c2 3c3;3a6 3c6 3d5;3a9 3c9 2126;412 432 1c80;414 434 1c81;",
      "41e 43e 1c82;421 441 1c83;422 442 1c84 1c85;42a 44a 1c86;462 463 1c87;1c88 a64a a64b;",
      "1e60 1e61 1e9b" ]

/-- Letters followed by their lowercase, in runs of such pairs: the first letter and the number
of pairs. -/
def loweringPairs : List (Nat × Nat) :=
  [ (256, 24), (306, 3), (313, 8), (330, 23), (377, 3), (386, 2), (416, 3), (435, 2), (459, 9),
    (478, 9), (498, 2), (504, 20), (546, 9), (582, 5), (880, 2), (984, 12), (1120, 17), (1162, 27),
    (1217, 7), (1232, 48), (7680, 75), (7840, 48), (11367, 3), (11392, 50), (11499, 2),
    (42560, 23), (42624, 14), (42786, 7), (42802, 31), (42873, 2), (42878, 5), (42896, 2),
    (42902, 10), (42932, 8), (42951, 2), (42956, 8) ]

/-- Single letters with the distances to their lowercase. -/
def loweringLetters : List (Nat × Int) :=
  [ (376, -121), (385, 210), (390, 206), (391, 1), (395, 1), (398, 79), (399, 202), (400, 203),
    (401, 1), (403, 205), (404, 207), (406, 211), (407, 209), (408, 1), (412, 211), (413, 213),
    (415, 214), (422, 218), (423, 1), (425, 218), (428, 1), (430, 218), (431, 1), (439, 219),
    (440, 1), (444, 1), (452, 2), (453, 1), (455, 2), (456, 1), (458, 2), (497, 2), (502, -97),
    (503, -56), (544, -130), (570, 10795), (571, 1), (573, -163), (574, 10792), (577, 1),
    (579, -195), (580, 69), (581, 71), (886, 1), (895, 116), (902, 38), (908, 64), (975, 8),
    (1012, -60), (1015, 1), (1017, -7), (1018, 1), (1216, 15), (4295, 7264), (4301, 7264),
    (7305, 1), (7838, -7615), (8025, -8), (8027, -8), (8029, -8), (8031, -8), (8124, -9),
    (8140, -9), (8172, -7), (8188, -9), (8486, -7517), (8490, -8383), (8491, -8262), (8498, 28),
    (8579, 1), (11360, 1), (11362, -10743), (11363, -3814), (11364, -10727), (11373, -10780),
    (11374, -10749), (11375, -10783), (11376, -10782), (11378, 1), (11381, 1), (11506, 1),
    (42877, -35332), (42891, 1), (42893, -42280), (42922, -42308), (42923, -42319),
    (42924, -42315), (42925, -42305), (42926, -42308), (42928, -42258), (42929, -42282),
    (42930, -42261), (42931, 928), (42948, -48), (42949, -42307), (42950, -35384), (42955, -42343),
    (42972, -42561), (42997, 1) ]

/-- Runs of letters with the distance to their lowercase. -/
def loweringRanges : List (Nat × Nat × Int) :=
  [ (65, 26, 32), (192, 23, 32), (216, 7, 32), (393, 2, 205), (433, 2, 217), (904, 3, 37),
    (910, 2, 63), (913, 17, 32), (931, 9, 32), (1021, 3, -130), (1024, 16, 80), (1040, 32, 32),
    (1329, 38, 48), (4256, 38, 7264), (5024, 80, 38864), (5104, 6, 8), (7312, 43, -3008),
    (7357, 3, -3008), (7944, 8, -8), (7960, 6, -8), (7976, 8, -8), (7992, 8, -8), (8008, 6, -8),
    (8040, 8, -8), (8072, 8, -8), (8088, 8, -8), (8104, 8, -8), (8120, 2, -8), (8122, 2, -74),
    (8136, 4, -86), (8152, 2, -8), (8154, 2, -100), (8168, 2, -8), (8170, 2, -112),
    (8184, 2, -128), (8186, 2, -126), (8544, 16, 16), (9398, 26, 26), (11264, 48, 48),
    (11390, 2, -10815), (65313, 26, 32), (66560, 40, 40), (66736, 36, 40), (66928, 11, 39),
    (66940, 15, 39), (66956, 7, 39), (66964, 2, 39), (68736, 51, 64), (68944, 22, 32),
    (71840, 32, 32), (93760, 32, 32), (93856, 25, 27), (125184, 34, 34) ]

end Highlighter.Unicode
