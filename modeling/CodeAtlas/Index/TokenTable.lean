import CodeAtlas.Text.Table

/-!
How the full-text index takes the characters beyond the first 128: which of them stand between tokens,
and which are taken for another one.  Code points the tables do not know belong to tokens as they are.
-/

namespace CodeAtlas.TokenTable

/-- Characters that stand between tokens: ranges. -/
def gap : Table := Table.ofRows [
    [128, 169, 171, 177, 180, 180, 182, 184, 187, 187, 191, 191, 215, 215, 247, 247, 706, 709],
    [722, 735, 741, 747, 749, 749, 751, 879, 885, 885, 894, 894, 900, 901, 903, 903, 1014, 1014],
    [1154, 1161, 1370, 1375, 1417, 1418, 1423, 1423, 1425, 1479, 1523, 1524, 1536, 1540, 1542],
    [1563, 1566, 1567, 1611, 1631, 1642, 1645, 1648, 1648, 1748, 1748, 1750, 1764, 1767, 1773],
    [1789, 1790, 1792, 1805, 1807, 1807, 1809, 1809, 1840, 1866, 1958, 1968, 2027, 2035, 2038],
    [2041, 2070, 2073, 2075, 2083, 2085, 2087, 2089, 2093, 2096, 2110, 2137, 2139, 2142, 2142],
    [2276, 2302, 2304, 2307, 2362, 2364, 2366, 2383, 2385, 2391, 2402, 2405, 2416, 2416, 2433],
    [2435, 2492, 2492, 2494, 2500, 2503, 2504, 2507, 2509, 2519, 2519, 2530, 2531, 2546, 2547],
    [2554, 2555, 2561, 2563, 2620, 2620, 2622, 2626, 2631, 2632, 2635, 2637, 2641, 2641, 2672],
    [2673, 2677, 2677, 2689, 2691, 2748, 2748, 2750, 2757, 2759, 2761, 2763, 2765, 2786, 2787],
    [2800, 2801, 2817, 2819, 2876, 2876, 2878, 2884, 2887, 2888, 2891, 2893, 2902, 2903, 2914],
    [2915, 2928, 2928, 2946, 2946, 3006, 3010, 3014, 3016, 3018, 3021, 3031, 3031, 3059, 3066],
    [3073, 3075, 3134, 3140, 3142, 3144, 3146, 3149, 3157, 3158, 3170, 3171, 3199, 3199, 3202],
    [3203, 3260, 3260, 3262, 3268, 3270, 3272, 3274, 3277, 3285, 3286, 3298, 3299, 3330, 3331],
    [3390, 3396, 3398, 3400, 3402, 3405, 3415, 3415, 3426, 3427, 3449, 3449, 3458, 3459, 3530],
    [3530, 3535, 3540, 3542, 3542, 3544, 3551, 3570, 3572, 3633, 3633, 3636, 3642, 3647, 3647],
    [3655, 3663, 3674, 3675, 3761, 3761, 3764, 3769, 3771, 3772, 3784, 3789, 3841, 3871, 3892],
    [3903, 3953, 3975, 3981, 3991, 3993, 4028, 4030, 4044, 4046, 4058, 4139, 4158, 4170, 4175],
    [4182, 4185, 4190, 4192, 4194, 4196, 4199, 4205, 4209, 4212, 4226, 4237, 4239, 4239, 4250],
    [4255, 4347, 4347, 4957, 4968, 5008, 5017, 5120, 5120, 5741, 5742, 5760, 5760, 5787, 5788],
    [5867, 5869, 5906, 5908, 5938, 5942, 5970, 5971, 6002, 6003, 6068, 6102, 6104, 6107, 6109],
    [6109, 6144, 6158, 6313, 6313, 6432, 6443, 6448, 6459, 6464, 6464, 6468, 6469, 6576, 6592],
    [6600, 6601, 6622, 6655, 6679, 6683, 6686, 6687, 6741, 6750, 6752, 6780, 6783, 6783, 6816],
    [6822, 6824, 6829, 6912, 6916, 6964, 6980, 7002, 7036, 7040, 7042, 7073, 7085, 7142, 7155],
    [7164, 7167, 7204, 7223, 7227, 7231, 7294, 7295, 7360, 7367, 7376, 7400, 7405, 7405, 7410],
    [7412, 7616, 7654, 7676, 7679, 8125, 8125, 8127, 8129, 8141, 8143, 8157, 8159, 8173, 8175],
    [8189, 8190, 8192, 8292, 8298, 8303, 8314, 8318, 8330, 8334, 8352, 8377, 8400, 8432, 8448],
    [8449, 8451, 8454, 8456, 8457, 8468, 8468, 8470, 8472, 8478, 8483, 8485, 8485, 8487, 8487],
    [8489, 8489, 8494, 8494, 8506, 8507, 8512, 8516, 8522, 8525, 8527, 8527, 8592, 9203, 9216],
    [9254, 9280, 9290, 9372, 9449, 9472, 9983, 9985, 10101, 10132, 11084, 11088, 11097, 11493],
    [11498, 11503, 11505, 11513, 11516, 11518, 11519, 11632, 11632, 11647, 11647, 11744, 11822],
    [11824, 11835, 11904, 11929, 11931, 12019, 12032, 12245, 12272, 12283, 12288, 12292, 12296],
    [12320, 12330, 12336, 12342, 12343, 12349, 12351, 12441, 12444, 12448, 12448, 12539, 12539],
    [12688, 12689, 12694, 12703, 12736, 12771, 12800, 12830, 12842, 12871, 12880, 12880, 12896],
    [12927, 12938, 12976, 12992, 13054, 13056, 13311, 19904, 19967, 42128, 42182, 42238, 42239],
    [42509, 42511, 42607, 42622, 42655, 42655, 42736, 42743, 42752, 42774, 42784, 42785, 42889],
    [42890, 43010, 43010, 43014, 43014, 43019, 43019, 43043, 43051, 43062, 43065, 43124, 43127],
    [43136, 43137, 43188, 43204, 43214, 43215, 43232, 43249, 43256, 43258, 43302, 43311, 43335],
    [43347, 43359, 43359, 43392, 43395, 43443, 43469, 43486, 43487, 43561, 43574, 43587, 43587],
    [43596, 43597, 43612, 43615, 43639, 43641, 43643, 43643, 43696, 43696, 43698, 43700, 43703],
    [43704, 43710, 43711, 43713, 43713, 43742, 43743, 43755, 43761, 43765, 43766, 44003, 44013],
    [64286, 64286, 64297, 64297, 64434, 64449, 64830, 64831, 65020, 65021, 65024, 65049, 65056],
    [65062, 65072, 65106, 65108, 65126, 65128, 65131, 65279, 65279, 65281, 65295, 65306, 65312],
    [65339, 65344, 65371, 65381, 65504, 65510, 65512, 65518, 65529, 65535, 65792, 65794, 65847],
    [65855, 65913, 65929, 65936, 65947, 66000, 66045, 66463, 66463, 66512, 66512, 67671, 67671],
    [67871, 67871, 67903, 67903, 68097, 68099, 68101, 68102, 68108, 68111, 68152, 68154, 68159],
    [68159, 68176, 68184, 68223, 68223, 68409, 68415, 69632, 69634, 69688, 69709, 69760, 69762],
    [69808, 69825, 69888, 69890, 69927, 69940, 69952, 69955, 70016, 70018, 70067, 70080, 70085],
    [70088, 71339, 71351, 74864, 74867, 94033, 94078, 94095, 94098, 118784, 119029, 119040],
    [119078, 119081, 119261, 119296, 119365, 119552, 119638, 120513, 120513, 120539, 120539],
    [120571, 120571, 120597, 120597, 120629, 120629, 120655, 120655, 120687, 120687, 120713],
    [120713, 120745, 120745, 120771, 120771, 126704, 126705, 126976, 127019, 127024, 127123],
    [127136, 127150, 127153, 127166, 127169, 127183, 127185, 127199, 127248, 127278, 127280],
    [127339, 127344, 127386, 127462, 127490, 127504, 127546, 127552, 127560, 127568, 127569],
    [127744, 127776, 127792, 127797, 127799, 127868, 127872, 127891, 127904, 127940, 127942],
    [127946, 127968, 127984, 128000, 128062, 128064, 128064, 128066, 128247, 128249, 128252],
    [128256, 128317, 128320, 128323, 128336, 128359, 128507, 128576, 128581, 128591, 128640],
    [128709, 128768, 128883, 917505, 917505, 917536, 917631, 917760, 917999]]

/-- Characters without their case and accent: runs of code points, as first and last one,
step, and the image of the first. -/
def fold : Table := Table.ofRows [
    [181, 181, 1, 956, 192, 192, 1, 97, 193, 193, 1, 97, 194, 194, 1, 97, 195, 195, 1, 97, 196],
    [196, 1, 97, 197, 197, 1, 97, 198, 198, 1, 230, 199, 199, 1, 99, 200, 200, 1, 101, 201, 201],
    [1, 101, 202, 202, 1, 101, 203, 203, 1, 101, 204, 204, 1, 105, 205, 205, 1, 105, 206, 206],
    [1, 105, 207, 207, 1, 105, 208, 208, 1, 240, 209, 210, 1, 110, 211, 211, 1, 111, 212, 212],
    [1, 111, 213, 213, 1, 111, 214, 214, 1, 111, 216, 216, 1, 248, 217, 217, 1, 117, 218, 218],
    [1, 117, 219, 219, 1, 117, 220, 220, 1, 117, 221, 221, 1, 121, 222, 222, 1, 254, 224, 224],
    [1, 97, 225, 225, 1, 97, 226, 226, 1, 97, 227, 227, 1, 97, 228, 228, 1, 97, 229, 231, 2, 97],
    [232, 232, 1, 101, 233, 233, 1, 101, 234, 234, 1, 101, 235, 235, 1, 101, 236, 236, 1, 105],
    [237, 237, 1, 105, 238, 238, 1, 105, 239, 239, 1, 105, 241, 242, 1, 110, 243, 243, 1, 111],
    [244, 244, 1, 111, 245, 245, 1, 111, 246, 246, 1, 111, 249, 249, 1, 117, 250, 250, 1, 117],
    [251, 251, 1, 117, 252, 252, 1, 117, 253, 253, 1, 121, 255, 255, 1, 121, 256, 256, 1, 97],
    [257, 257, 1, 97, 258, 258, 1, 97, 259, 259, 1, 97, 260, 260, 1, 97, 261, 261, 1, 97, 262],
    [262, 1, 99, 263, 263, 1, 99, 264, 264, 1, 99, 265, 265, 1, 99, 266, 266, 1, 99, 267, 267],
    [1, 99, 268, 268, 1, 99, 269, 270, 1, 99, 271, 271, 1, 100, 272, 272, 1, 273, 274, 274, 1],
    [101, 275, 275, 1, 101, 276, 276, 1, 101, 277, 277, 1, 101, 278, 278, 1, 101, 279, 279, 1],
    [101, 280, 280, 1, 101, 281, 281, 1, 101, 282, 282, 1, 101, 283, 283, 1, 101, 284, 284, 1],
    [103, 285, 285, 1, 103, 286, 286, 1, 103, 287, 287, 1, 103, 288, 288, 1, 103, 289, 289, 1],
    [103, 290, 290, 1, 103, 291, 292, 1, 103, 293, 293, 1, 104, 294, 294, 1, 295, 296, 296, 1],
    [105, 297, 297, 1, 105, 298, 298, 1, 105, 299, 299, 1, 105, 300, 300, 1, 105, 301, 301, 1],
    [105, 302, 302, 1, 105, 303, 303, 1, 105, 304, 304, 1, 105, 306, 306, 1, 307, 308, 308, 1],
    [106, 309, 310, 1, 106, 311, 311, 1, 107, 313, 313, 1, 108, 314, 314, 1, 108, 315, 315, 1],
    [108, 316, 316, 1, 108, 317, 317, 1, 108, 318, 318, 1, 108, 319, 321, 2, 320, 323, 323, 1],
    [110, 324, 324, 1, 110, 325, 325, 1, 110, 326, 326, 1, 110, 327, 327, 1, 110, 328, 328, 1],
    [110, 330, 330, 1, 331, 332, 332, 1, 111, 333, 333, 1, 111, 334, 334, 1, 111, 335, 335, 1],
    [111, 336, 336, 1, 111, 337, 337, 1, 111, 338, 338, 1, 339, 340, 340, 1, 114, 341, 341, 1],
    [114, 342, 342, 1, 114, 343, 343, 1, 114, 344, 344, 1, 114, 345, 346, 1, 114, 347, 347, 1],
    [115, 348, 348, 1, 115, 349, 349, 1, 115, 350, 350, 1, 115, 351, 351, 1, 115, 352, 352, 1],
    [115, 353, 354, 1, 115, 355, 355, 1, 116, 356, 356, 1, 116, 357, 357, 1, 116, 358, 358, 1],
    [359, 360, 360, 1, 117, 361, 361, 1, 117, 362, 362, 1, 117, 363, 363, 1, 117, 364, 364, 1],
    [117, 365, 365, 1, 117, 366, 366, 1, 117, 367, 367, 1, 117, 368, 368, 1, 117, 369, 369, 1],
    [117, 370, 370, 1, 117, 371, 371, 1, 117, 372, 372, 1, 119, 373, 373, 1, 119, 374, 374, 1],
    [121, 375, 375, 1, 121, 376, 377, 1, 121, 378, 378, 1, 122, 379, 379, 1, 122, 380, 380, 1],
    [122, 381, 381, 1, 122, 382, 382, 1, 122, 383, 383, 1, 115, 385, 385, 1, 595, 386, 388, 2],
    [387, 390, 390, 1, 596, 391, 391, 1, 392, 393, 394, 1, 598, 395, 395, 1, 396, 398, 398, 1],
    [477, 399, 399, 1, 601, 400, 400, 1, 603, 401, 401, 1, 402, 403, 403, 1, 608, 404, 404, 1],
    [611, 406, 406, 1, 617, 407, 407, 1, 616, 408, 408, 1, 409, 412, 412, 1, 623, 413, 413, 1],
    [626, 415, 415, 1, 629, 416, 416, 1, 111, 417, 417, 1, 111, 418, 420, 2, 419, 422, 422, 1],
    [640, 423, 423, 1, 424, 425, 425, 1, 643, 428, 428, 1, 429, 430, 430, 1, 648, 431, 431, 1],
    [117, 432, 432, 1, 117, 433, 434, 1, 650, 435, 437, 2, 436, 439, 439, 1, 658, 440, 440, 1],
    [441, 444, 444, 1, 445, 452, 452, 1, 454, 453, 453, 1, 454, 455, 455, 1, 457, 456, 456, 1],
    [457, 458, 458, 1, 460, 459, 459, 1, 460, 461, 461, 1, 97, 462, 462, 1, 97, 463, 463, 1],
    [105, 464, 464, 1, 105, 465, 465, 1, 111, 466, 466, 1, 111, 467, 467, 1, 117, 468, 468, 1],
    [117, 469, 475, 2, 470, 478, 484, 2, 479, 486, 486, 1, 103, 487, 487, 1, 103, 488, 488, 1],
    [107, 489, 489, 1, 107, 490, 490, 1, 111, 491, 491, 1, 111, 492, 494, 2, 493, 496, 496, 1],
    [106, 497, 497, 1, 499, 498, 498, 1, 499, 500, 500, 1, 103, 501, 501, 1, 103, 502, 502, 1],
    [405, 503, 503, 1, 447, 504, 504, 1, 110, 505, 505, 1, 110, 506, 510, 2, 507, 512, 512, 1],
    [97, 513, 513, 1, 97, 514, 514, 1, 97, 515, 515, 1, 97, 516, 516, 1, 101, 517, 517, 1, 101],
    [518, 518, 1, 101, 519, 519, 1, 101, 520, 520, 1, 105, 521, 521, 1, 105, 522, 522, 1, 105],
    [523, 523, 1, 105, 524, 524, 1, 111, 525, 525, 1, 111, 526, 526, 1, 111, 527, 527, 1, 111],
    [528, 528, 1, 114, 529, 529, 1, 114, 530, 530, 1, 114, 531, 531, 1, 114, 532, 532, 1, 117],
    [533, 533, 1, 117, 534, 534, 1, 117, 535, 535, 1, 117, 536, 536, 1, 115, 537, 538, 1, 115],
    [539, 539, 1, 116, 540, 540, 1, 541, 542, 542, 1, 104, 543, 543, 1, 104, 544, 544, 1, 414],
    [546, 548, 2, 547, 550, 550, 1, 97, 551, 551, 1, 97, 552, 552, 1, 101, 553, 553, 1, 101],
    [554, 556, 2, 555, 558, 558, 1, 111, 559, 559, 1, 111, 560, 560, 1, 561, 562, 562, 1, 121],
    [563, 563, 1, 121, 570, 570, 1, 11365, 571, 571, 1, 572, 573, 573, 1, 410, 574, 574, 1],
    [11366, 577, 577, 1, 578, 579, 579, 1, 384, 580, 580, 1, 649, 581, 581, 1, 652, 582, 590, 2],
    [583, 880, 882, 2, 881, 886, 886, 1, 887, 902, 902, 1, 940, 904, 906, 1, 941, 908, 908, 1],
    [972, 910, 911, 1, 973, 913, 929, 1, 945, 931, 939, 1, 963, 962, 962, 1, 963, 975, 975, 1],
    [983, 976, 976, 1, 946, 977, 977, 1, 952, 981, 981, 1, 966, 982, 982, 1, 960, 984, 1006, 2],
    [985, 1008, 1008, 1, 954, 1009, 1009, 1, 961, 1012, 1012, 1, 952, 1013, 1013, 1, 949, 1015],
    [1015, 1, 1016, 1017, 1017, 1, 1010, 1018, 1018, 1, 1019, 1021, 1023, 1, 891, 1024, 1039, 1],
    [1104, 1040, 1071, 1, 1072, 1120, 1152, 2, 1121, 1162, 1214, 2, 1163, 1216, 1216, 1, 1231],
    [1217, 1229, 2, 1218, 1232, 1318, 2, 1233, 1329, 1366, 1, 1377, 4256, 4293, 1, 11520, 4295],
    [4295, 1, 11559, 4301, 4301, 1, 11565, 7680, 7680, 1, 97, 7681, 7682, 1, 97, 7683, 7683, 1],
    [98, 7684, 7684, 1, 98, 7685, 7685, 1, 98, 7686, 7686, 1, 98, 7687, 7687, 1, 98, 7688, 7688],
    [1, 7689, 7690, 7690, 1, 100, 7691, 7691, 1, 100, 7692, 7692, 1, 100, 7693, 7693, 1, 100],
    [7694, 7694, 1, 100, 7695, 7695, 1, 100, 7696, 7696, 1, 100, 7697, 7697, 1, 100, 7698, 7698],
    [1, 100, 7699, 7699, 1, 100, 7700, 7702, 2, 7701, 7704, 7704, 1, 101, 7705, 7705, 1, 101],
    [7706, 7706, 1, 101, 7707, 7707, 1, 101, 7708, 7708, 1, 7709, 7710, 7710, 1, 102, 7711],
    [7712, 1, 102, 7713, 7714, 1, 103, 7715, 7715, 1, 104, 7716, 7716, 1, 104, 7717, 7717, 1],
    [104, 7718, 7718, 1, 104, 7719, 7719, 1, 104, 7720, 7720, 1, 104, 7721, 7721, 1, 104, 7722],
    [7722, 1, 104, 7723, 7724, 1, 104, 7725, 7725, 1, 105, 7726, 7726, 1, 7727, 7728, 7728, 1],
    [107, 7729, 7729, 1, 107, 7730, 7730, 1, 107, 7731, 7731, 1, 107, 7732, 7732, 1, 107, 7733],
    [7734, 1, 107, 7735, 7735, 1, 108, 7736, 7736, 1, 7737, 7738, 7738, 1, 108, 7739, 7739, 1],
    [108, 7740, 7740, 1, 108, 7741, 7742, 1, 108, 7743, 7743, 1, 109, 7744, 7744, 1, 109, 7745],
    [7745, 1, 109, 7746, 7746, 1, 109, 7747, 7748, 1, 109, 7749, 7749, 1, 110, 7750, 7750, 1],
    [110, 7751, 7751, 1, 110, 7752, 7752, 1, 110, 7753, 7753, 1, 110, 7754, 7754, 1, 110, 7755],
    [7755, 1, 110, 7756, 7762, 2, 7757, 7764, 7764, 1, 112, 7765, 7765, 1, 112, 7766, 7766, 1],
    [112, 7767, 7767, 1, 112, 7768, 7768, 1, 114, 7769, 7769, 1, 114, 7770, 7770, 1, 114, 7771],
    [7771, 1, 114, 7772, 7772, 1, 7773, 7774, 7774, 1, 114, 7775, 7776, 1, 114, 7777, 7777, 1],
    [115, 7778, 7778, 1, 115, 7779, 7779, 1, 115, 7780, 7784, 2, 7781, 7786, 7786, 1, 116, 7787],
    [7787, 1, 116, 7788, 7788, 1, 116, 7789, 7789, 1, 116, 7790, 7790, 1, 116, 7791, 7791, 1],
    [116, 7792, 7792, 1, 116, 7793, 7794, 1, 116, 7795, 7795, 1, 117, 7796, 7796, 1, 117, 7797],
    [7797, 1, 117, 7798, 7798, 1, 117, 7799, 7799, 1, 117, 7800, 7802, 2, 7801, 7804, 7804, 1],
    [118, 7805, 7805, 1, 118, 7806, 7806, 1, 118, 7807, 7808, 1, 118, 7809, 7809, 1, 119, 7810],
    [7810, 1, 119, 7811, 7811, 1, 119, 7812, 7812, 1, 119, 7813, 7813, 1, 119, 7814, 7814, 1],
    [119, 7815, 7815, 1, 119, 7816, 7816, 1, 119, 7817, 7818, 1, 119, 7819, 7819, 1, 120, 7820],
    [7820, 1, 120, 7821, 7822, 1, 120, 7823, 7824, 1, 121, 7825, 7825, 1, 122, 7826, 7826, 1],
    [122, 7827, 7827, 1, 122, 7828, 7828, 1, 122, 7829, 7829, 1, 122, 7830, 7830, 1, 104, 7831],
    [7831, 1, 116, 7832, 7832, 1, 119, 7833, 7833, 1, 121, 7835, 7835, 1, 115, 7838, 7838, 1],
    [223, 7840, 7840, 1, 97, 7841, 7841, 1, 97, 7842, 7842, 1, 97, 7843, 7843, 1, 97, 7844],
    [7862, 2, 7845, 7864, 7864, 1, 101, 7865, 7865, 1, 101, 7866, 7866, 1, 101, 7867, 7867, 1],
    [101, 7868, 7868, 1, 101, 7869, 7869, 1, 101, 7870, 7878, 2, 7871, 7880, 7880, 1, 105, 7881],
    [7881, 1, 105, 7882, 7882, 1, 105, 7883, 7883, 1, 105, 7884, 7884, 1, 111, 7885, 7885, 1],
    [111, 7886, 7886, 1, 111, 7887, 7887, 1, 111, 7888, 7906, 2, 7889, 7908, 7908, 1, 117, 7909],
    [7909, 1, 117, 7910, 7910, 1, 117, 7911, 7911, 1, 117, 7912, 7920, 2, 7913, 7922, 7922, 1],
    [121, 7923, 7923, 1, 121, 7924, 7924, 1, 121, 7925, 7925, 1, 121, 7926, 7926, 1, 121, 7927],
    [7927, 1, 121, 7928, 7928, 1, 121, 7929, 7929, 1, 121, 7930, 7934, 2, 7931, 7944, 7951, 1],
    [7936, 7960, 7965, 1, 7952, 7976, 7983, 1, 7968, 7992, 7999, 1, 7984, 8008, 8013, 1, 8000],
    [8025, 8031, 2, 8017, 8040, 8047, 1, 8032, 8072, 8079, 1, 8064, 8088, 8095, 1, 8080, 8104],
    [8111, 1, 8096, 8120, 8121, 1, 8112, 8122, 8123, 1, 8048, 8124, 8124, 1, 8115, 8126, 8126],
    [1, 953, 8136, 8139, 1, 8050, 8140, 8140, 1, 8131, 8152, 8153, 1, 8144, 8154, 8155, 1, 8054],
    [8168, 8169, 1, 8160, 8170, 8171, 1, 8058, 8172, 8172, 1, 8165, 8184, 8185, 1, 8056, 8186],
    [8187, 1, 8060, 8188, 8188, 1, 8179, 8486, 8486, 1, 969, 8490, 8490, 1, 107, 8491, 8491, 1],
    [97, 8498, 8498, 1, 8526, 8544, 8559, 1, 8560, 8579, 8579, 1, 8580, 11264, 11310, 1, 11312],
    [11360, 11360, 1, 11361, 11362, 11362, 1, 619, 11363, 11363, 1, 7549, 11364, 11364, 1, 637],
    [11367, 11371, 2, 11368, 11373, 11373, 1, 593, 11374, 11374, 1, 625, 11375, 11375, 1, 592],
    [11376, 11376, 1, 594, 11378, 11378, 1, 11379, 11381, 11381, 1, 11382, 11390, 11391, 1, 575],
    [11392, 11490, 2, 11393, 11499, 11501, 2, 11500, 11506, 11506, 1, 11507, 42560, 42604, 2],
    [42561, 42624, 42646, 2, 42625, 42786, 42798, 2, 42787, 42802, 42862, 2, 42803, 42873],
    [42875, 2, 42874, 42877, 42877, 1, 7545, 42878, 42886, 2, 42879, 42891, 42891, 1, 42892],
    [42893, 42893, 1, 613, 42896, 42898, 2, 42897, 42912, 42920, 2, 42913, 42922, 42922, 1, 614],
    [65313, 65338, 1, 65345, 66560, 66599, 1, 66600]]

end CodeAtlas.TokenTable
