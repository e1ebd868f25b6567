import CodeAtlas.Text.Table

/-!
The general categories, scripts and case mappings of characters, by Unicode 17.  The categories and
scripts are lists of pairs, the first code point of a stretch and its number; a mapping is a list of
runs: first and last code point, step, and the image of the first.  Which version of Unicode counts is
a matter of the build: one that has the tables of Unicode 15 knows nothing of the characters that came
after it.
-/

namespace CodeAtlas.CharTable

def categoriesTo7FF : List (List Nat) := [
    [0, 25, 32, 22, 33, 17, 36, 19, 37, 17, 40, 13, 41, 14, 42, 17, 43, 18, 44, 17, 45, 12, 46],
    [17, 48, 8, 58, 17, 60, 18, 63, 17, 65, 0, 91, 13, 92, 17, 93, 14, 94, 20, 95, 11, 96, 20],
    [97, 1, 123, 13, 124, 18, 125, 14, 126, 18, 127, 25, 160, 22, 161, 17, 162, 19, 166, 21],
    [167, 17, 168, 20, 169, 21, 170, 4, 171, 15, 172, 18, 173, 26, 174, 21, 175, 20, 176, 21],
    [177, 18, 178, 10, 180, 20, 181, 1, 182, 17, 184, 20, 185, 10, 186, 4, 187, 16, 188, 10],
    [191, 17, 192, 0, 215, 18, 216, 0, 223, 1, 247, 18, 248, 1, 256, 0, 257, 1, 258, 0, 259, 1],
    [260, 0, 261, 1, 262, 0, 263, 1, 264, 0, 265, 1, 266, 0, 267, 1, 268, 0, 269, 1, 270, 0],
    [271, 1, 272, 0, 273, 1, 274, 0, 275, 1, 276, 0, 277, 1, 278, 0, 279, 1, 280, 0, 281, 1],
    [282, 0, 283, 1, 284, 0, 285, 1, 286, 0, 287, 1, 288, 0, 289, 1, 290, 0, 291, 1, 292, 0],
    [293, 1, 294, 0, 295, 1, 296, 0, 297, 1, 298, 0, 299, 1, 300, 0, 301, 1, 302, 0, 303, 1],
    [304, 0, 305, 1, 306, 0, 307, 1, 308, 0, 309, 1, 310, 0, 311, 1, 313, 0, 314, 1, 315, 0],
    [316, 1, 317, 0, 318, 1, 319, 0, 320, 1, 321, 0, 322, 1, 323, 0, 324, 1, 325, 0, 326, 1],
    [327, 0, 328, 1, 330, 0, 331, 1, 332, 0, 333, 1, 334, 0, 335, 1, 336, 0, 337, 1, 338, 0],
    [339, 1, 340, 0, 341, 1, 342, 0, 343, 1, 344, 0, 345, 1, 346, 0, 347, 1, 348, 0, 349, 1],
    [350, 0, 351, 1, 352, 0, 353, 1, 354, 0, 355, 1, 356, 0, 357, 1, 358, 0, 359, 1, 360, 0],
    [361, 1, 362, 0, 363, 1, 364, 0, 365, 1, 366, 0, 367, 1, 368, 0, 369, 1, 370, 0, 371, 1],
    [372, 0, 373, 1, 374, 0, 375, 1, 376, 0, 378, 1, 379, 0, 380, 1, 381, 0, 382, 1, 385, 0],
    [387, 1, 388, 0, 389, 1, 390, 0, 392, 1, 393, 0, 396, 1, 398, 0, 402, 1, 403, 0, 405, 1],
    [406, 0, 409, 1, 412, 0, 414, 1, 415, 0, 417, 1, 418, 0, 419, 1, 420, 0, 421, 1, 422, 0],
    [424, 1, 425, 0, 426, 1, 428, 0, 429, 1, 430, 0, 432, 1, 433, 0, 436, 1, 437, 0, 438, 1],
    [439, 0, 441, 1, 443, 4, 444, 0, 445, 1, 448, 4, 452, 0, 453, 2, 454, 1, 455, 0, 456, 2],
    [457, 1, 458, 0, 459, 2, 460, 1, 461, 0, 462, 1, 463, 0, 464, 1, 465, 0, 466, 1, 467, 0],
    [468, 1, 469, 0, 470, 1, 471, 0, 472, 1, 473, 0, 474, 1, 475, 0, 476, 1, 478, 0, 479, 1],
    [480, 0, 481, 1, 482, 0, 483, 1, 484, 0, 485, 1, 486, 0, 487, 1, 488, 0, 489, 1, 490, 0],
    [491, 1, 492, 0, 493, 1, 494, 0, 495, 1, 497, 0, 498, 2, 499, 1, 500, 0, 501, 1, 502, 0],
    [505, 1, 506, 0, 507, 1, 508, 0, 509, 1, 510, 0, 511, 1, 512, 0, 513, 1, 514, 0, 515, 1],
    [516, 0, 517, 1, 518, 0, 519, 1, 520, 0, 521, 1, 522, 0, 523, 1, 524, 0, 525, 1, 526, 0],
    [527, 1, 528, 0, 529, 1, 530, 0, 531, 1, 532, 0, 533, 1, 534, 0, 535, 1, 536, 0, 537, 1],
    [538, 0, 539, 1, 540, 0, 541, 1, 542, 0, 543, 1, 544, 0, 545, 1, 546, 0, 547, 1, 548, 0],
    [549, 1, 550, 0, 551, 1, 552, 0, 553, 1, 554, 0, 555, 1, 556, 0, 557, 1, 558, 0, 559, 1],
    [560, 0, 561, 1, 562, 0, 563, 1, 570, 0, 572, 1, 573, 0, 575, 1, 577, 0, 578, 1, 579, 0],
    [583, 1, 584, 0, 585, 1, 586, 0, 587, 1, 588, 0, 589, 1, 590, 0, 591, 1, 660, 4, 662, 1],
    [688, 3, 706, 20, 710, 3, 722, 20, 736, 3, 741, 20, 748, 3, 749, 20, 750, 3, 751, 20, 768],
    [5, 880, 0, 881, 1, 882, 0, 883, 1, 884, 3, 885, 20, 886, 0, 887, 1, 888, 29, 890, 3, 891],
    [1, 894, 17, 895, 0, 896, 29, 900, 20, 902, 0, 903, 17, 904, 0, 907, 29, 908, 0, 909, 29],
    [910, 0, 912, 1, 913, 0, 930, 29, 931, 0, 940, 1, 975, 0, 976, 1, 978, 0, 981, 1, 984, 0],
    [985, 1, 986, 0, 987, 1, 988, 0, 989, 1, 990, 0, 991, 1, 992, 0, 993, 1, 994, 0, 995, 1],
    [996, 0, 997, 1, 998, 0, 999, 1, 1000, 0, 1001, 1, 1002, 0, 1003, 1, 1004, 0, 1005, 1, 1006],
    [0, 1007, 1, 1012, 0, 1013, 1, 1014, 18, 1015, 0, 1016, 1, 1017, 0, 1019, 1, 1021, 0, 1072],
    [1, 1120, 0, 1121, 1, 1122, 0, 1123, 1, 1124, 0, 1125, 1, 1126, 0, 1127, 1, 1128, 0, 1129],
    [1, 1130, 0, 1131, 1, 1132, 0, 1133, 1, 1134, 0, 1135, 1, 1136, 0, 1137, 1, 1138, 0, 1139],
    [1, 1140, 0, 1141, 1, 1142, 0, 1143, 1, 1144, 0, 1145, 1, 1146, 0, 1147, 1, 1148, 0, 1149],
    [1, 1150, 0, 1151, 1, 1152, 0, 1153, 1, 1154, 21, 1155, 5, 1160, 7, 1162, 0, 1163, 1, 1164],
    [0, 1165, 1, 1166, 0, 1167, 1, 1168, 0, 1169, 1, 1170, 0, 1171, 1, 1172, 0, 1173, 1, 1174],
    [0, 1175, 1, 1176, 0, 1177, 1, 1178, 0, 1179, 1, 1180, 0, 1181, 1, 1182, 0, 1183, 1, 1184],
    [0, 1185, 1, 1186, 0, 1187, 1, 1188, 0, 1189, 1, 1190, 0, 1191, 1, 1192, 0, 1193, 1, 1194],
    [0, 1195, 1, 1196, 0, 1197, 1, 1198, 0, 1199, 1, 1200, 0, 1201, 1, 1202, 0, 1203, 1, 1204],
    [0, 1205, 1, 1206, 0, 1207, 1, 1208, 0, 1209, 1, 1210, 0, 1211, 1, 1212, 0, 1213, 1, 1214],
    [0, 1215, 1, 1216, 0, 1218, 1, 1219, 0, 1220, 1, 1221, 0, 1222, 1, 1223, 0, 1224, 1, 1225],
    [0, 1226, 1, 1227, 0, 1228, 1, 1229, 0, 1230, 1, 1232, 0, 1233, 1, 1234, 0, 1235, 1, 1236],
    [0, 1237, 1, 1238, 0, 1239, 1, 1240, 0, 1241, 1, 1242, 0, 1243, 1, 1244, 0, 1245, 1, 1246],
    [0, 1247, 1, 1248, 0, 1249, 1, 1250, 0, 1251, 1, 1252, 0, 1253, 1, 1254, 0, 1255, 1, 1256],
    [0, 1257, 1, 1258, 0, 1259, 1, 1260, 0, 1261, 1, 1262, 0, 1263, 1, 1264, 0, 1265, 1, 1266],
    [0, 1267, 1, 1268, 0, 1269, 1, 1270, 0, 1271, 1, 1272, 0, 1273, 1, 1274, 0, 1275, 1, 1276],
    [0, 1277, 1, 1278, 0, 1279, 1, 1280, 0, 1281, 1, 1282, 0, 1283, 1, 1284, 0, 1285, 1, 1286],
    [0, 1287, 1, 1288, 0, 1289, 1, 1290, 0, 1291, 1, 1292, 0, 1293, 1, 1294, 0, 1295, 1, 1296],
    [0, 1297, 1, 1298, 0, 1299, 1, 1300, 0, 1301, 1, 1302, 0, 1303, 1, 1304, 0, 1305, 1, 1306],
    [0, 1307, 1, 1308, 0, 1309, 1, 1310, 0, 1311, 1, 1312, 0, 1313, 1, 1314, 0, 1315, 1, 1316],
    [0, 1317, 1, 1318, 0, 1319, 1, 1320, 0, 1321, 1, 1322, 0, 1323, 1, 1324, 0, 1325, 1, 1326],
    [0, 1327, 1, 1328, 29, 1329, 0, 1367, 29, 1369, 3, 1370, 17, 1376, 1, 1417, 17, 1418, 12],
    [1419, 29, 1421, 21, 1423, 19, 1424, 29, 1425, 5, 1470, 12, 1471, 5, 1472, 17, 1473, 5],
    [1475, 17, 1476, 5, 1478, 17, 1479, 5, 1480, 29, 1488, 4, 1515, 29, 1519, 4, 1523, 17, 1525],
    [29, 1536, 26, 1542, 18, 1545, 17, 1547, 19, 1548, 17, 1550, 21, 1552, 5, 1563, 17, 1564],
    [26, 1565, 17, 1568, 4, 1600, 3, 1601, 4, 1611, 5, 1632, 8, 1642, 17, 1646, 4, 1648, 5],
    [1649, 4, 1748, 17, 1749, 4, 1750, 5, 1757, 26, 1758, 21, 1759, 5, 1765, 3, 1767, 5, 1769],
    [21, 1770, 5, 1774, 4, 1776, 8, 1786, 4, 1789, 21, 1791, 4, 1792, 17, 1806, 29, 1807, 26],
    [1808, 4, 1809, 5, 1810, 4, 1840, 5, 1867, 29, 1869, 4, 1958, 5, 1969, 4, 1970, 29, 1984, 8],
    [1994, 4, 2027, 5, 2036, 3, 2038, 21, 2039, 17, 2042, 3, 2043, 29, 2045, 5, 2046, 19]]

def categoriesToFFF : List (List Nat) := [
    [2048, 4, 2070, 5, 2074, 3, 2075, 5, 2084, 3, 2085, 5, 2088, 3, 2089, 5, 2094, 29, 2096, 17],
    [2111, 29, 2112, 4, 2137, 5, 2140, 29, 2142, 17, 2143, 29, 2144, 4, 2155, 29, 2160, 4, 2184],
    [20, 2185, 4, 2192, 26, 2194, 29, 2199, 5, 2208, 4, 2249, 3, 2250, 5, 2274, 26, 2275, 5],
    [2307, 6, 2308, 4, 2362, 5, 2363, 6, 2364, 5, 2365, 4, 2366, 6, 2369, 5, 2377, 6, 2381, 5],
    [2382, 6, 2384, 4, 2385, 5, 2392, 4, 2402, 5, 2404, 17, 2406, 8, 2416, 17, 2417, 3, 2418, 4],
    [2433, 5, 2434, 6, 2436, 29, 2437, 4, 2445, 29, 2447, 4, 2449, 29, 2451, 4, 2473, 29, 2474],
    [4, 2481, 29, 2482, 4, 2483, 29, 2486, 4, 2490, 29, 2492, 5, 2493, 4, 2494, 6, 2497, 5],
    [2501, 29, 2503, 6, 2505, 29, 2507, 6, 2509, 5, 2510, 4, 2511, 29, 2519, 6, 2520, 29, 2524],
    [4, 2526, 29, 2527, 4, 2530, 5, 2532, 29, 2534, 8, 2544, 4, 2546, 19, 2548, 10, 2554, 21],
    [2555, 19, 2556, 4, 2557, 17, 2558, 5, 2559, 29, 2561, 5, 2563, 6, 2564, 29, 2565, 4, 2571],
    [29, 2575, 4, 2577, 29, 2579, 4, 2601, 29, 2602, 4, 2609, 29, 2610, 4, 2612, 29, 2613, 4],
    [2615, 29, 2616, 4, 2618, 29, 2620, 5, 2621, 29, 2622, 6, 2625, 5, 2627, 29, 2631, 5, 2633],
    [29, 2635, 5, 2638, 29, 2641, 5, 2642, 29, 2649, 4, 2653, 29, 2654, 4, 2655, 29, 2662, 8],
    [2672, 5, 2674, 4, 2677, 5, 2678, 17, 2679, 29, 2689, 5, 2691, 6, 2692, 29, 2693, 4, 2702],
    [29, 2703, 4, 2706, 29, 2707, 4, 2729, 29, 2730, 4, 2737, 29, 2738, 4, 2740, 29, 2741, 4],
    [2746, 29, 2748, 5, 2749, 4, 2750, 6, 2753, 5, 2758, 29, 2759, 5, 2761, 6, 2762, 29, 2763],
    [6, 2765, 5, 2766, 29, 2768, 4, 2769, 29, 2784, 4, 2786, 5, 2788, 29, 2790, 8, 2800, 17],
    [2801, 19, 2802, 29, 2809, 4, 2810, 5, 2816, 29, 2817, 5, 2818, 6, 2820, 29, 2821, 4, 2829],
    [29, 2831, 4, 2833, 29, 2835, 4, 2857, 29, 2858, 4, 2865, 29, 2866, 4, 2868, 29, 2869, 4],
    [2874, 29, 2876, 5, 2877, 4, 2878, 6, 2879, 5, 2880, 6, 2881, 5, 2885, 29, 2887, 6, 2889],
    [29, 2891, 6, 2893, 5, 2894, 29, 2901, 5, 2903, 6, 2904, 29, 2908, 4, 2910, 29, 2911, 4],
    [2914, 5, 2916, 29, 2918, 8, 2928, 21, 2929, 4, 2930, 10, 2936, 29, 2946, 5, 2947, 4, 2948],
    [29, 2949, 4, 2955, 29, 2958, 4, 2961, 29, 2962, 4, 2966, 29, 2969, 4, 2971, 29, 2972, 4],
    [2973, 29, 2974, 4, 2976, 29, 2979, 4, 2981, 29, 2984, 4, 2987, 29, 2990, 4, 3002, 29, 3006],
    [6, 3008, 5, 3009, 6, 3011, 29, 3014, 6, 3017, 29, 3018, 6, 3021, 5, 3022, 29, 3024, 4],
    [3025, 29, 3031, 6, 3032, 29, 3046, 8, 3056, 10, 3059, 21, 3065, 19, 3066, 21, 3067, 29],
    [3072, 5, 3073, 6, 3076, 5, 3077, 4, 3085, 29, 3086, 4, 3089, 29, 3090, 4, 3113, 29, 3114],
    [4, 3130, 29, 3132, 5, 3133, 4, 3134, 5, 3137, 6, 3141, 29, 3142, 5, 3145, 29, 3146, 5],
    [3150, 29, 3157, 5, 3159, 29, 3160, 4, 3163, 29, 3164, 4, 3166, 29, 3168, 4, 3170, 5, 3172],
    [29, 3174, 8, 3184, 29, 3191, 17, 3192, 10, 3199, 21, 3200, 4, 3201, 5, 3202, 6, 3204, 17],
    [3205, 4, 3213, 29, 3214, 4, 3217, 29, 3218, 4, 3241, 29, 3242, 4, 3252, 29, 3253, 4, 3258],
    [29, 3260, 5, 3261, 4, 3262, 6, 3263, 5, 3264, 6, 3269, 29, 3270, 5, 3271, 6, 3273, 29],
    [3274, 6, 3276, 5, 3278, 29, 3285, 6, 3287, 29, 3292, 4, 3295, 29, 3296, 4, 3298, 5, 3300],
    [29, 3302, 8, 3312, 29, 3313, 4, 3315, 6, 3316, 29, 3328, 5, 3330, 6, 3332, 4, 3341, 29],
    [3342, 4, 3345, 29, 3346, 4, 3387, 5, 3389, 4, 3390, 6, 3393, 5, 3397, 29, 3398, 6, 3401],
    [29, 3402, 6, 3405, 5, 3406, 4, 3407, 21, 3408, 29, 3412, 4, 3415, 6, 3416, 10, 3423, 4],
    [3426, 5, 3428, 29, 3430, 8, 3440, 10, 3449, 21, 3450, 4, 3456, 29, 3457, 5, 3458, 6, 3460],
    [29, 3461, 4, 3479, 29, 3482, 4, 3506, 29, 3507, 4, 3516, 29, 3517, 4, 3518, 29, 3520, 4],
    [3527, 29, 3530, 5, 3531, 29, 3535, 6, 3538, 5, 3541, 29, 3542, 5, 3543, 29, 3544, 6, 3552],
    [29, 3558, 8, 3568, 29, 3570, 6, 3572, 17, 3573, 29, 3585, 4, 3633, 5, 3634, 4, 3636, 5],
    [3643, 29, 3647, 19, 3648, 4, 3654, 3, 3655, 5, 3663, 17, 3664, 8, 3674, 17, 3676, 29, 3713],
    [4, 3715, 29, 3716, 4, 3717, 29, 3718, 4, 3723, 29, 3724, 4, 3748, 29, 3749, 4, 3750, 29],
    [3751, 4, 3761, 5, 3762, 4, 3764, 5, 3773, 4, 3774, 29, 3776, 4, 3781, 29, 3782, 3, 3783],
    [29, 3784, 5, 3791, 29, 3792, 8, 3802, 29, 3804, 4, 3808, 29, 3840, 4, 3841, 21, 3844, 17],
    [3859, 21, 3860, 17, 3861, 21, 3864, 5, 3866, 21, 3872, 8, 3882, 10, 3892, 21, 3893, 5],
    [3894, 21, 3895, 5, 3896, 21, 3897, 5, 3898, 13, 3899, 14, 3900, 13, 3901, 14, 3902, 6],
    [3904, 4, 3912, 29, 3913, 4, 3949, 29, 3953, 5, 3967, 6, 3968, 5, 3973, 17, 3974, 5, 3976],
    [4, 3981, 5, 3992, 29, 3993, 5, 4029, 29, 4030, 21, 4038, 5, 4039, 21, 4045, 29, 4046, 21],
    [4048, 17, 4053, 21, 4057, 17, 4059, 29]]

def categoriesTo1FFF : List (List Nat) := [
    [4096, 4, 4139, 6, 4141, 5, 4145, 6, 4146, 5, 4152, 6, 4153, 5, 4155, 6, 4157, 5, 4159, 4],
    [4160, 8, 4170, 17, 4176, 4, 4182, 6, 4184, 5, 4186, 4, 4190, 5, 4193, 4, 4194, 6, 4197, 4],
    [4199, 6, 4206, 4, 4209, 5, 4213, 4, 4226, 5, 4227, 6, 4229, 5, 4231, 6, 4237, 5, 4238, 4],
    [4239, 6, 4240, 8, 4250, 6, 4253, 5, 4254, 21, 4256, 0, 4294, 29, 4295, 0, 4296, 29, 4301],
    [0, 4302, 29, 4304, 1, 4347, 17, 4348, 3, 4349, 1, 4352, 4, 4681, 29, 4682, 4, 4686, 29],
    [4688, 4, 4695, 29, 4696, 4, 4697, 29, 4698, 4, 4702, 29, 4704, 4, 4745, 29, 4746, 4, 4750],
    [29, 4752, 4, 4785, 29, 4786, 4, 4790, 29, 4792, 4, 4799, 29, 4800, 4, 4801, 29, 4802, 4],
    [4806, 29, 4808, 4, 4823, 29, 4824, 4, 4881, 29, 4882, 4, 4886, 29, 4888, 4, 4955, 29, 4957],
    [5, 4960, 17, 4969, 10, 4989, 29, 4992, 4, 5008, 21, 5018, 29, 5024, 0, 5110, 29, 5112, 1],
    [5118, 29, 5120, 12, 5121, 4, 5741, 21, 5742, 17, 5743, 4, 5760, 22, 5761, 4, 5787, 13],
    [5788, 14, 5789, 29, 5792, 4, 5867, 17, 5870, 9, 5873, 4, 5881, 29, 5888, 4, 5906, 5, 5909],
    [6, 5910, 29, 5919, 4, 5938, 5, 5940, 6, 5941, 17, 5943, 29, 5952, 4, 5970, 5, 5972, 29],
    [5984, 4, 5997, 29, 5998, 4, 6001, 29, 6002, 5, 6004, 29, 6016, 4, 6068, 5, 6070, 6, 6071],
    [5, 6078, 6, 6086, 5, 6087, 6, 6089, 5, 6100, 17, 6103, 3, 6104, 17, 6107, 19, 6108, 4],
    [6109, 5, 6110, 29, 6112, 8, 6122, 29, 6128, 10, 6138, 29, 6144, 17, 6150, 12, 6151, 17],
    [6155, 5, 6158, 26, 6159, 5, 6160, 8, 6170, 29, 6176, 4, 6211, 3, 6212, 4, 6265, 29, 6272],
    [4, 6277, 5, 6279, 4, 6313, 5, 6314, 4, 6315, 29, 6320, 4, 6390, 29, 6400, 4, 6431, 29],
    [6432, 5, 6435, 6, 6439, 5, 6441, 6, 6444, 29, 6448, 6, 6450, 5, 6451, 6, 6457, 5, 6460, 29],
    [6464, 21, 6465, 29, 6468, 17, 6470, 8, 6480, 4, 6510, 29, 6512, 4, 6517, 29, 6528, 4, 6572],
    [29, 6576, 4, 6602, 29, 6608, 8, 6618, 10, 6619, 29, 6622, 21, 6656, 4, 6679, 5, 6681, 6],
    [6683, 5, 6684, 29, 6686, 17, 6688, 4, 6741, 6, 6742, 5, 6743, 6, 6744, 5, 6751, 29, 6752],
    [5, 6753, 6, 6754, 5, 6755, 6, 6757, 5, 6765, 6, 6771, 5, 6781, 29, 6783, 5, 6784, 8, 6794],
    [29, 6800, 8, 6810, 29, 6816, 17, 6823, 3, 6824, 17, 6830, 29, 6832, 5, 6846, 7, 6847, 5],
    [6878, 29, 6880, 5, 6892, 29, 6912, 5, 6916, 6, 6917, 4, 6964, 5, 6965, 6, 6966, 5, 6971, 6],
    [6972, 5, 6973, 6, 6978, 5, 6979, 6, 6981, 4, 6989, 29, 6990, 17, 6992, 8, 7002, 17, 7009],
    [21, 7019, 5, 7028, 21, 7037, 17, 7040, 5, 7042, 6, 7043, 4, 7073, 6, 7074, 5, 7078, 6],
    [7080, 5, 7082, 6, 7083, 5, 7086, 4, 7088, 8, 7098, 4, 7142, 5, 7143, 6, 7144, 5, 7146, 6],
    [7149, 5, 7150, 6, 7151, 5, 7154, 6, 7156, 29, 7164, 17, 7168, 4, 7204, 6, 7212, 5, 7220, 6],
    [7222, 5, 7224, 29, 7227, 17, 7232, 8, 7242, 29, 7245, 4, 7248, 8, 7258, 4, 7288, 3, 7294],
    [17, 7296, 1, 7305, 0, 7306, 1, 7307, 29, 7312, 0, 7355, 29, 7357, 0, 7360, 17, 7368, 29],
    [7376, 5, 7379, 17, 7380, 5, 7393, 6, 7394, 5, 7401, 4, 7405, 5, 7406, 4, 7412, 5, 7413, 4],
    [7415, 6, 7416, 5, 7418, 4, 7419, 29, 7424, 1, 7468, 3, 7531, 1, 7544, 3, 7545, 1, 7579, 3],
    [7616, 5, 7680, 0, 7681, 1, 7682, 0, 7683, 1, 7684, 0, 7685, 1, 7686, 0, 7687, 1, 7688, 0],
    [7689, 1, 7690, 0, 7691, 1, 7692, 0, 7693, 1, 7694, 0, 7695, 1, 7696, 0, 7697, 1, 7698, 0],
    [7699, 1, 7700, 0, 7701, 1, 7702, 0, 7703, 1, 7704, 0, 7705, 1, 7706, 0, 7707, 1, 7708, 0],
    [7709, 1, 7710, 0, 7711, 1, 7712, 0, 7713, 1, 7714, 0, 7715, 1, 7716, 0, 7717, 1, 7718, 0],
    [7719, 1, 7720, 0, 7721, 1, 7722, 0, 7723, 1, 7724, 0, 7725, 1, 7726, 0, 7727, 1, 7728, 0],
    [7729, 1, 7730, 0, 7731, 1, 7732, 0, 7733, 1, 7734, 0, 7735, 1, 7736, 0, 7737, 1, 7738, 0],
    [7739, 1, 7740, 0, 7741, 1, 7742, 0, 7743, 1, 7744, 0, 7745, 1, 7746, 0, 7747, 1, 7748, 0],
    [7749, 1, 7750, 0, 7751, 1, 7752, 0, 7753, 1, 7754, 0, 7755, 1, 7756, 0, 7757, 1, 7758, 0],
    [7759, 1, 7760, 0, 7761, 1, 7762, 0, 7763, 1, 7764, 0, 7765, 1, 7766, 0, 7767, 1, 7768, 0],
    [7769, 1, 7770, 0, 7771, 1, 7772, 0, 7773, 1, 7774, 0, 7775, 1, 7776, 0, 7777, 1, 7778, 0],
    [7779, 1, 7780, 0, 7781, 1, 7782, 0, 7783, 1, 7784, 0, 7785, 1, 7786, 0, 7787, 1, 7788, 0],
    [7789, 1, 7790, 0, 7791, 1, 7792, 0, 7793, 1, 7794, 0, 7795, 1, 7796, 0, 7797, 1, 7798, 0],
    [7799, 1, 7800, 0, 7801, 1, 7802, 0, 7803, 1, 7804, 0, 7805, 1, 7806, 0, 7807, 1, 7808, 0],
    [7809, 1, 7810, 0, 7811, 1, 7812, 0, 7813, 1, 7814, 0, 7815, 1, 7816, 0, 7817, 1, 7818, 0],
    [7819, 1, 7820, 0, 7821, 1, 7822, 0, 7823, 1, 7824, 0, 7825, 1, 7826, 0, 7827, 1, 7828, 0],
    [7829, 1, 7838, 0, 7839, 1, 7840, 0, 7841, 1, 7842, 0, 7843, 1, 7844, 0, 7845, 1, 7846, 0],
    [7847, 1, 7848, 0, 7849, 1, 7850, 0, 7851, 1, 7852, 0, 7853, 1, 7854, 0, 7855, 1, 7856, 0],
    [7857, 1, 7858, 0, 7859, 1, 7860, 0, 7861, 1, 7862, 0, 7863, 1, 7864, 0, 7865, 1, 7866, 0],
    [7867, 1, 7868, 0, 7869, 1, 7870, 0, 7871, 1, 7872, 0, 7873, 1, 7874, 0, 7875, 1, 7876, 0],
    [7877, 1, 7878, 0, 7879, 1, 7880, 0, 7881, 1, 7882, 0, 7883, 1, 7884, 0, 7885, 1, 7886, 0],
    [7887, 1, 7888, 0, 7889, 1, 7890, 0, 7891, 1, 7892, 0, 7893, 1, 7894, 0, 7895, 1, 7896, 0],
    [7897, 1, 7898, 0, 7899, 1, 7900, 0, 7901, 1, 7902, 0, 7903, 1, 7904, 0, 7905, 1, 7906, 0],
    [7907, 1, 7908, 0, 7909, 1, 7910, 0, 7911, 1, 7912, 0, 7913, 1, 7914, 0, 7915, 1, 7916, 0],
    [7917, 1, 7918, 0, 7919, 1, 7920, 0, 7921, 1, 7922, 0, 7923, 1, 7924, 0, 7925, 1, 7926, 0],
    [7927, 1, 7928, 0, 7929, 1, 7930, 0, 7931, 1, 7932, 0, 7933, 1, 7934, 0, 7935, 1, 7944, 0],
    [7952, 1, 7958, 29, 7960, 0, 7966, 29, 7968, 1, 7976, 0, 7984, 1, 7992, 0, 8000, 1, 8006],
    [29, 8008, 0, 8014, 29, 8016, 1, 8024, 29, 8025, 0, 8026, 29, 8027, 0, 8028, 29, 8029, 0],
    [8030, 29, 8031, 0, 8032, 1, 8040, 0, 8048, 1, 8062, 29, 8064, 1, 8072, 2, 8080, 1, 8088, 2],
    [8096, 1, 8104, 2, 8112, 1, 8117, 29, 8118, 1, 8120, 0, 8124, 2, 8125, 20, 8126, 1, 8127],
    [20, 8130, 1, 8133, 29, 8134, 1, 8136, 0, 8140, 2, 8141, 20, 8144, 1, 8148, 29, 8150, 1],
    [8152, 0, 8156, 29, 8157, 20, 8160, 1, 8168, 0, 8173, 20, 8176, 29, 8178, 1, 8181, 29, 8182],
    [1, 8184, 0, 8188, 2, 8189, 20, 8191, 29]]

def categoriesTo2FFF : List (List Nat) := [
    [8192, 22, 8203, 26, 8208, 12, 8214, 17, 8216, 15, 8217, 16, 8218, 13, 8219, 15, 8221, 16],
    [8222, 13, 8223, 15, 8224, 17, 8232, 23, 8233, 24, 8234, 26, 8239, 22, 8240, 17, 8249, 15],
    [8250, 16, 8251, 17, 8255, 11, 8257, 17, 8260, 18, 8261, 13, 8262, 14, 8263, 17, 8274, 18],
    [8275, 17, 8276, 11, 8277, 17, 8287, 22, 8288, 26, 8293, 29, 8294, 26, 8304, 10, 8305, 3],
    [8306, 29, 8308, 10, 8314, 18, 8317, 13, 8318, 14, 8319, 3, 8320, 10, 8330, 18, 8333, 13],
    [8334, 14, 8335, 29, 8336, 3, 8349, 29, 8352, 19, 8386, 29, 8400, 5, 8413, 7, 8417, 5, 8418],
    [7, 8421, 5, 8433, 29, 8448, 21, 8450, 0, 8451, 21, 8455, 0, 8456, 21, 8458, 1, 8459, 0],
    [8462, 1, 8464, 0, 8467, 1, 8468, 21, 8469, 0, 8470, 21, 8472, 18, 8473, 0, 8478, 21, 8484],
    [0, 8485, 21, 8486, 0, 8487, 21, 8488, 0, 8489, 21, 8490, 0, 8494, 21, 8495, 1, 8496, 0],
    [8500, 1, 8501, 4, 8505, 1, 8506, 21, 8508, 1, 8510, 0, 8512, 18, 8517, 0, 8518, 1, 8522],
    [21, 8523, 18, 8524, 21, 8526, 1, 8527, 21, 8528, 10, 8544, 9, 8579, 0, 8580, 1, 8581, 9],
    [8585, 10, 8586, 21, 8588, 29, 8592, 18, 8597, 21, 8602, 18, 8604, 21, 8608, 18, 8609, 21],
    [8611, 18, 8612, 21, 8614, 18, 8615, 21, 8622, 18, 8623, 21, 8654, 18, 8656, 21, 8658, 18],
    [8659, 21, 8660, 18, 8661, 21, 8692, 18, 8960, 21, 8968, 13, 8969, 14, 8970, 13, 8971, 14],
    [8972, 21, 8992, 18, 8994, 21, 9001, 13, 9002, 14, 9003, 21, 9084, 18, 9085, 21, 9115, 18],
    [9140, 21, 9180, 18, 9186, 21, 9258, 29, 9280, 21, 9291, 29, 9312, 10, 9372, 21, 9450, 10],
    [9472, 21, 9655, 18, 9656, 21, 9665, 18, 9666, 21, 9720, 18, 9728, 21, 9839, 18, 9840, 21],
    [10088, 13, 10089, 14, 10090, 13, 10091, 14, 10092, 13, 10093, 14, 10094, 13, 10095, 14],
    [10096, 13, 10097, 14, 10098, 13, 10099, 14, 10100, 13, 10101, 14, 10102, 10, 10132, 21],
    [10176, 18, 10181, 13, 10182, 14, 10183, 18, 10214, 13, 10215, 14, 10216, 13, 10217, 14],
    [10218, 13, 10219, 14, 10220, 13, 10221, 14, 10222, 13, 10223, 14, 10224, 18, 10240, 21],
    [10496, 18, 10627, 13, 10628, 14, 10629, 13, 10630, 14, 10631, 13, 10632, 14, 10633, 13],
    [10634, 14, 10635, 13, 10636, 14, 10637, 13, 10638, 14, 10639, 13, 10640, 14, 10641, 13],
    [10642, 14, 10643, 13, 10644, 14, 10645, 13, 10646, 14, 10647, 13, 10648, 14, 10649, 18],
    [10712, 13, 10713, 14, 10714, 13, 10715, 14, 10716, 18, 10748, 13, 10749, 14, 10750, 18],
    [11008, 21, 11056, 18, 11077, 21, 11079, 18, 11085, 21, 11124, 29, 11126, 21, 11264, 0],
    [11312, 1, 11360, 0, 11361, 1, 11362, 0, 11365, 1, 11367, 0, 11368, 1, 11369, 0, 11370, 1],
    [11371, 0, 11372, 1, 11373, 0, 11377, 1, 11378, 0, 11379, 1, 11381, 0, 11382, 1, 11388, 3],
    [11390, 0, 11393, 1, 11394, 0, 11395, 1, 11396, 0, 11397, 1, 11398, 0, 11399, 1, 11400, 0],
    [11401, 1, 11402, 0, 11403, 1, 11404, 0, 11405, 1, 11406, 0, 11407, 1, 11408, 0, 11409, 1],
    [11410, 0, 11411, 1, 11412, 0, 11413, 1, 11414, 0, 11415, 1, 11416, 0, 11417, 1, 11418, 0],
    [11419, 1, 11420, 0, 11421, 1, 11422, 0, 11423, 1, 11424, 0, 11425, 1, 11426, 0, 11427, 1],
    [11428, 0, 11429, 1, 11430, 0, 11431, 1, 11432, 0, 11433, 1, 11434, 0, 11435, 1, 11436, 0],
    [11437, 1, 11438, 0, 11439, 1, 11440, 0, 11441, 1, 11442, 0, 11443, 1, 11444, 0, 11445, 1],
    [11446, 0, 11447, 1, 11448, 0, 11449, 1, 11450, 0, 11451, 1, 11452, 0, 11453, 1, 11454, 0],
    [11455, 1, 11456, 0, 11457, 1, 11458, 0, 11459, 1, 11460, 0, 11461, 1, 11462, 0, 11463, 1],
    [11464, 0, 11465, 1, 11466, 0, 11467, 1, 11468, 0, 11469, 1, 11470, 0, 11471, 1, 11472, 0],
    [11473, 1, 11474, 0, 11475, 1, 11476, 0, 11477, 1, 11478, 0, 11479, 1, 11480, 0, 11481, 1],
    [11482, 0, 11483, 1, 11484, 0, 11485, 1, 11486, 0, 11487, 1, 11488, 0, 11489, 1, 11490, 0],
    [11491, 1, 11493, 21, 11499, 0, 11500, 1, 11501, 0, 11502, 1, 11503, 5, 11506, 0, 11507, 1],
    [11508, 29, 11513, 17, 11517, 10, 11518, 17, 11520, 1, 11558, 29, 11559, 1, 11560, 29],
    [11565, 1, 11566, 29, 11568, 4, 11624, 29, 11631, 3, 11632, 17, 11633, 29, 11647, 5, 11648],
    [4, 11671, 29, 11680, 4, 11687, 29, 11688, 4, 11695, 29, 11696, 4, 11703, 29, 11704, 4],
    [11711, 29, 11712, 4, 11719, 29, 11720, 4, 11727, 29, 11728, 4, 11735, 29, 11736, 4, 11743],
    [29, 11744, 5, 11776, 17, 11778, 15, 11779, 16, 11780, 15, 11781, 16, 11782, 17, 11785, 15],
    [11786, 16, 11787, 17, 11788, 15, 11789, 16, 11790, 17, 11799, 12, 11800, 17, 11802, 12],
    [11803, 17, 11804, 15, 11805, 16, 11806, 17, 11808, 15, 11809, 16, 11810, 13, 11811, 14],
    [11812, 13, 11813, 14, 11814, 13, 11815, 14, 11816, 13, 11817, 14, 11818, 17, 11823, 3],
    [11824, 17, 11834, 12, 11836, 17, 11840, 12, 11841, 17, 11842, 13, 11843, 17, 11856, 21],
    [11858, 17, 11861, 13, 11862, 14, 11863, 13, 11864, 14, 11865, 13, 11866, 14, 11867, 13],
    [11868, 14, 11869, 12, 11870, 29, 11904, 21, 11930, 29, 11931, 21, 12020, 29, 12032, 21],
    [12246, 29, 12272, 21]]

def categoriesToFFFF : List (List Nat) := [
    [12288, 22, 12289, 17, 12292, 21, 12293, 3, 12294, 4, 12295, 9, 12296, 13, 12297, 14, 12298],
    [13, 12299, 14, 12300, 13, 12301, 14, 12302, 13, 12303, 14, 12304, 13, 12305, 14, 12306, 21],
    [12308, 13, 12309, 14, 12310, 13, 12311, 14, 12312, 13, 12313, 14, 12314, 13, 12315, 14],
    [12316, 12, 12317, 13, 12318, 14, 12320, 21, 12321, 9, 12330, 5, 12334, 6, 12336, 12, 12337],
    [3, 12342, 21, 12344, 9, 12347, 3, 12348, 4, 12349, 17, 12350, 21, 12352, 29, 12353, 4],
    [12439, 29, 12441, 5, 12443, 20, 12445, 3, 12447, 4, 12448, 12, 12449, 4, 12539, 17, 12540],
    [3, 12543, 4, 12544, 29, 12549, 4, 12592, 29, 12593, 4, 12687, 29, 12688, 21, 12690, 10],
    [12694, 21, 12704, 4, 12736, 21, 12774, 29, 12783, 21, 12784, 4, 12800, 21, 12831, 29],
    [12832, 10, 12842, 21, 12872, 10, 12880, 21, 12881, 10, 12896, 21, 12928, 10, 12938, 21],
    [12977, 10, 12992, 21, 13312, 4, 19904, 21, 19968, 4, 40981, 3, 40982, 4, 42125, 29, 42128],
    [21, 42183, 29, 42192, 4, 42232, 3, 42238, 17, 42240, 4, 42508, 3, 42509, 17, 42512, 4],
    [42528, 8, 42538, 4, 42540, 29, 42560, 0, 42561, 1, 42562, 0, 42563, 1, 42564, 0, 42565, 1],
    [42566, 0, 42567, 1, 42568, 0, 42569, 1, 42570, 0, 42571, 1, 42572, 0, 42573, 1, 42574, 0],
    [42575, 1, 42576, 0, 42577, 1, 42578, 0, 42579, 1, 42580, 0, 42581, 1, 42582, 0, 42583, 1],
    [42584, 0, 42585, 1, 42586, 0, 42587, 1, 42588, 0, 42589, 1, 42590, 0, 42591, 1, 42592, 0],
    [42593, 1, 42594, 0, 42595, 1, 42596, 0, 42597, 1, 42598, 0, 42599, 1, 42600, 0, 42601, 1],
    [42602, 0, 42603, 1, 42604, 0, 42605, 1, 42606, 4, 42607, 5, 42608, 7, 42611, 17, 42612, 5],
    [42622, 17, 42623, 3, 42624, 0, 42625, 1, 42626, 0, 42627, 1, 42628, 0, 42629, 1, 42630, 0],
    [42631, 1, 42632, 0, 42633, 1, 42634, 0, 42635, 1, 42636, 0, 42637, 1, 42638, 0, 42639, 1],
    [42640, 0, 42641, 1, 42642, 0, 42643, 1, 42644, 0, 42645, 1, 42646, 0, 42647, 1, 42648, 0],
    [42649, 1, 42650, 0, 42651, 1, 42652, 3, 42654, 5, 42656, 4, 42726, 9, 42736, 5, 42738, 17],
    [42744, 29, 42752, 20, 42775, 3, 42784, 20, 42786, 0, 42787, 1, 42788, 0, 42789, 1, 42790],
    [0, 42791, 1, 42792, 0, 42793, 1, 42794, 0, 42795, 1, 42796, 0, 42797, 1, 42798, 0, 42799],
    [1, 42802, 0, 42803, 1, 42804, 0, 42805, 1, 42806, 0, 42807, 1, 42808, 0, 42809, 1, 42810],
    [0, 42811, 1, 42812, 0, 42813, 1, 42814, 0, 42815, 1, 42816, 0, 42817, 1, 42818, 0, 42819],
    [1, 42820, 0, 42821, 1, 42822, 0, 42823, 1, 42824, 0, 42825, 1, 42826, 0, 42827, 1, 42828],
    [0, 42829, 1, 42830, 0, 42831, 1, 42832, 0, 42833, 1, 42834, 0, 42835, 1, 42836, 0, 42837],
    [1, 42838, 0, 42839, 1, 42840, 0, 42841, 1, 42842, 0, 42843, 1, 42844, 0, 42845, 1, 42846],
    [0, 42847, 1, 42848, 0, 42849, 1, 42850, 0, 42851, 1, 42852, 0, 42853, 1, 42854, 0, 42855],
    [1, 42856, 0, 42857, 1, 42858, 0, 42859, 1, 42860, 0, 42861, 1, 42862, 0, 42863, 1, 42864],
    [3, 42865, 1, 42873, 0, 42874, 1, 42875, 0, 42876, 1, 42877, 0, 42879, 1, 42880, 0, 42881],
    [1, 42882, 0, 42883, 1, 42884, 0, 42885, 1, 42886, 0, 42887, 1, 42888, 3, 42889, 20, 42891],
    [0, 42892, 1, 42893, 0, 42894, 1, 42895, 4, 42896, 0, 42897, 1, 42898, 0, 42899, 1, 42902],
    [0, 42903, 1, 42904, 0, 42905, 1, 42906, 0, 42907, 1, 42908, 0, 42909, 1, 42910, 0, 42911],
    [1, 42912, 0, 42913, 1, 42914, 0, 42915, 1, 42916, 0, 42917, 1, 42918, 0, 42919, 1, 42920],
    [0, 42921, 1, 42922, 0, 42927, 1, 42928, 0, 42933, 1, 42934, 0, 42935, 1, 42936, 0, 42937],
    [1, 42938, 0, 42939, 1, 42940, 0, 42941, 1, 42942, 0, 42943, 1, 42944, 0, 42945, 1, 42946],
    [0, 42947, 1, 42948, 0, 42952, 1, 42953, 0, 42954, 1, 42955, 0, 42957, 1, 42958, 0, 42959],
    [1, 42960, 0, 42961, 1, 42962, 0, 42963, 1, 42964, 0, 42965, 1, 42966, 0, 42967, 1, 42968],
    [0, 42969, 1, 42970, 0, 42971, 1, 42972, 0, 42973, 29, 42993, 3, 42997, 0, 42998, 1, 42999],
    [4, 43000, 3, 43002, 1, 43003, 4, 43010, 5, 43011, 4, 43014, 5, 43015, 4, 43019, 5, 43020],
    [4, 43043, 6, 43045, 5, 43047, 6, 43048, 21, 43052, 5, 43053, 29, 43056, 10, 43062, 21],
    [43064, 19, 43065, 21, 43066, 29, 43072, 4, 43124, 17, 43128, 29, 43136, 6, 43138, 4, 43188],
    [6, 43204, 5, 43206, 29, 43214, 17, 43216, 8, 43226, 29, 43232, 5, 43250, 4, 43256, 17],
    [43259, 4, 43260, 17, 43261, 4, 43263, 5, 43264, 8, 43274, 4, 43302, 5, 43310, 17, 43312, 4],
    [43335, 5, 43346, 6, 43348, 29, 43359, 17, 43360, 4, 43389, 29, 43392, 5, 43395, 6, 43396],
    [4, 43443, 5, 43444, 6, 43446, 5, 43450, 6, 43452, 5, 43454, 6, 43457, 17, 43470, 29, 43471],
    [3, 43472, 8, 43482, 29, 43486, 17, 43488, 4, 43493, 5, 43494, 3, 43495, 4, 43504, 8, 43514],
    [4, 43519, 29, 43520, 4, 43561, 5, 43567, 6, 43569, 5, 43571, 6, 43573, 5, 43575, 29, 43584],
    [4, 43587, 5, 43588, 4, 43596, 5, 43597, 6, 43598, 29, 43600, 8, 43610, 29, 43612, 17],
    [43616, 4, 43632, 3, 43633, 4, 43639, 21, 43642, 4, 43643, 6, 43644, 5, 43645, 6, 43646, 4],
    [43696, 5, 43697, 4, 43698, 5, 43701, 4, 43703, 5, 43705, 4, 43710, 5, 43712, 4, 43713, 5],
    [43714, 4, 43715, 29, 43739, 4, 43741, 3, 43742, 17, 43744, 4, 43755, 6, 43756, 5, 43758, 6],
    [43760, 17, 43762, 4, 43763, 3, 43765, 6, 43766, 5, 43767, 29, 43777, 4, 43783, 29, 43785],
    [4, 43791, 29, 43793, 4, 43799, 29, 43808, 4, 43815, 29, 43816, 4, 43823, 29, 43824, 1],
    [43867, 20, 43868, 3, 43872, 1, 43881, 3, 43882, 20, 43884, 29, 43888, 1, 43968, 4, 44003],
    [6, 44005, 5, 44006, 6, 44008, 5, 44009, 6, 44011, 17, 44012, 6, 44013, 5, 44014, 29, 44016],
    [8, 44026, 29, 44032, 4, 55204, 29, 55216, 4, 55239, 29, 55243, 4, 55292, 29, 55296, 27],
    [57344, 28, 63744, 4, 64110, 29, 64112, 4, 64218, 29, 64256, 1, 64263, 29, 64275, 1, 64280],
    [29, 64285, 4, 64286, 5, 64287, 4, 64297, 18, 64298, 4, 64311, 29, 64312, 4, 64317, 29],
    [64318, 4, 64319, 29, 64320, 4, 64322, 29, 64323, 4, 64325, 29, 64326, 4, 64434, 20, 64451],
    [21, 64467, 4, 64830, 14, 64831, 13, 64832, 21, 64848, 4, 64912, 21, 64914, 4, 64968, 21],
    [64976, 29, 65008, 4, 65020, 19, 65021, 21, 65024, 5, 65040, 17, 65047, 13, 65048, 14],
    [65049, 17, 65050, 29, 65056, 5, 65072, 17, 65073, 12, 65075, 11, 65077, 13, 65078, 14],
    [65079, 13, 65080, 14, 65081, 13, 65082, 14, 65083, 13, 65084, 14, 65085, 13, 65086, 14],
    [65087, 13, 65088, 14, 65089, 13, 65090, 14, 65091, 13, 65092, 14, 65093, 17, 65095, 13],
    [65096, 14, 65097, 17, 65101, 11, 65104, 17, 65107, 29, 65108, 17, 65112, 12, 65113, 13],
    [65114, 14, 65115, 13, 65116, 14, 65117, 13, 65118, 14, 65119, 17, 65122, 18, 65123, 12],
    [65124, 18, 65127, 29, 65128, 17, 65129, 19, 65130, 17, 65132, 29, 65136, 4, 65141, 29],
    [65142, 4, 65277, 29, 65279, 26, 65280, 29, 65281, 17, 65284, 19, 65285, 17, 65288, 13],
    [65289, 14, 65290, 17, 65291, 18, 65292, 17, 65293, 12, 65294, 17, 65296, 8, 65306, 17],
    [65308, 18, 65311, 17, 65313, 0, 65339, 13, 65340, 17, 65341, 14, 65342, 20, 65343, 11],
    [65344, 20, 65345, 1, 65371, 13, 65372, 18, 65373, 14, 65374, 18, 65375, 13, 65376, 14],
    [65377, 17, 65378, 13, 65379, 14, 65380, 17, 65382, 4, 65392, 3, 65393, 4, 65438, 3, 65440],
    [4, 65471, 29, 65474, 4, 65480, 29, 65482, 4, 65488, 29, 65490, 4, 65496, 29, 65498, 4],
    [65501, 29, 65504, 19, 65506, 18, 65507, 20, 65508, 21, 65509, 19, 65511, 29, 65512, 21],
    [65513, 18, 65517, 21, 65519, 29, 65529, 26, 65532, 21, 65534, 29]]

def categoriesTo11FFF : List (List Nat) := [
    [65536, 4, 65548, 29, 65549, 4, 65575, 29, 65576, 4, 65595, 29, 65596, 4, 65598, 29, 65599],
    [4, 65614, 29, 65616, 4, 65630, 29, 65664, 4, 65787, 29, 65792, 17, 65795, 29, 65799, 10],
    [65844, 29, 65847, 21, 65856, 9, 65909, 10, 65913, 21, 65930, 10, 65932, 21, 65935, 29],
    [65936, 21, 65949, 29, 65952, 21, 65953, 29, 66000, 21, 66045, 5, 66046, 29, 66176, 4],
    [66205, 29, 66208, 4, 66257, 29, 66272, 5, 66273, 10, 66300, 29, 66304, 4, 66336, 10, 66340],
    [29, 66349, 4, 66369, 9, 66370, 4, 66378, 9, 66379, 29, 66384, 4, 66422, 5, 66427, 29],
    [66432, 4, 66462, 29, 66463, 17, 66464, 4, 66500, 29, 66504, 4, 66512, 17, 66513, 9, 66518],
    [29, 66560, 0, 66600, 1, 66640, 4, 66718, 29, 66720, 8, 66730, 29, 66736, 0, 66772, 29],
    [66776, 1, 66812, 29, 66816, 4, 66856, 29, 66864, 4, 66916, 29, 66927, 17, 66928, 0, 66939],
    [29, 66940, 0, 66955, 29, 66956, 0, 66963, 29, 66964, 0, 66966, 29, 66967, 1, 66978, 29],
    [66979, 1, 66994, 29, 66995, 1, 67002, 29, 67003, 1, 67005, 29, 67008, 4, 67060, 29, 67072],
    [4, 67383, 29, 67392, 4, 67414, 29, 67424, 4, 67432, 29, 67456, 3, 67462, 29, 67463, 3],
    [67505, 29, 67506, 3, 67515, 29, 67584, 4, 67590, 29, 67592, 4, 67593, 29, 67594, 4, 67638],
    [29, 67639, 4, 67641, 29, 67644, 4, 67645, 29, 67647, 4, 67670, 29, 67671, 17, 67672, 10],
    [67680, 4, 67703, 21, 67705, 10, 67712, 4, 67743, 29, 67751, 10, 67760, 29, 67808, 4, 67827],
    [29, 67828, 4, 67830, 29, 67835, 10, 67840, 4, 67862, 10, 67868, 29, 67871, 17, 67872, 4],
    [67898, 29, 67903, 17, 67904, 4, 67930, 29, 67968, 4, 68024, 29, 68028, 10, 68030, 4, 68032],
    [10, 68048, 29, 68050, 10, 68096, 4, 68097, 5, 68100, 29, 68101, 5, 68103, 29, 68108, 5],
    [68112, 4, 68116, 29, 68117, 4, 68120, 29, 68121, 4, 68150, 29, 68152, 5, 68155, 29, 68159],
    [5, 68160, 10, 68169, 29, 68176, 17, 68185, 29, 68192, 4, 68221, 10, 68223, 17, 68224, 4],
    [68253, 10, 68256, 29, 68288, 4, 68296, 21, 68297, 4, 68325, 5, 68327, 29, 68331, 10, 68336],
    [17, 68343, 29, 68352, 4, 68406, 29, 68409, 17, 68416, 4, 68438, 29, 68440, 10, 68448, 4],
    [68467, 29, 68472, 10, 68480, 4, 68498, 29, 68505, 17, 68509, 29, 68521, 10, 68528, 29],
    [68608, 4, 68681, 29, 68736, 0, 68787, 29, 68800, 1, 68851, 29, 68858, 10, 68864, 4, 68900],
    [5, 68904, 29, 68912, 8, 68922, 29, 68928, 8, 68938, 4, 68942, 3, 68943, 4, 68944, 0, 68966],
    [29, 68969, 5, 68974, 12, 68975, 3, 68976, 1, 68998, 29, 69006, 18, 69008, 29, 69216, 10],
    [69247, 29, 69248, 4, 69290, 29, 69291, 5, 69293, 12, 69294, 29, 69296, 4, 69298, 29, 69314],
    [4, 69317, 3, 69318, 4, 69320, 29, 69328, 17, 69329, 21, 69337, 29, 69370, 5, 69376, 4],
    [69405, 10, 69415, 4, 69416, 29, 69424, 4, 69446, 5, 69457, 10, 69461, 17, 69466, 29, 69488],
    [4, 69506, 5, 69510, 17, 69514, 29, 69552, 4, 69573, 10, 69580, 29, 69600, 4, 69623, 29],
    [69632, 6, 69633, 5, 69634, 6, 69635, 4, 69688, 5, 69703, 17, 69710, 29, 69714, 10, 69734],
    [8, 69744, 5, 69745, 4, 69747, 5, 69749, 4, 69750, 29, 69759, 5, 69762, 6, 69763, 4, 69808],
    [6, 69811, 5, 69815, 6, 69817, 5, 69819, 17, 69821, 26, 69822, 17, 69826, 5, 69827, 29],
    [69837, 26, 69838, 29, 69840, 4, 69865, 29, 69872, 8, 69882, 29, 69888, 5, 69891, 4, 69927],
    [5, 69932, 6, 69933, 5, 69941, 29, 69942, 8, 69952, 17, 69956, 4, 69957, 6, 69959, 4, 69960],
    [29, 69968, 4, 70003, 5, 70004, 17, 70006, 4, 70007, 29, 70016, 5, 70018, 6, 70019, 4],
    [70067, 6, 70070, 5, 70079, 6, 70081, 4, 70085, 17, 70089, 5, 70093, 17, 70094, 6, 70095, 5],
    [70096, 8, 70106, 4, 70107, 17, 70108, 4, 70109, 17, 70112, 29, 70113, 10, 70133, 29, 70144],
    [4, 70162, 29, 70163, 4, 70188, 6, 70191, 5, 70194, 6, 70196, 5, 70197, 6, 70198, 5, 70200],
    [17, 70206, 5, 70207, 4, 70209, 5, 70210, 29, 70272, 4, 70279, 29, 70280, 4, 70281, 29],
    [70282, 4, 70286, 29, 70287, 4, 70302, 29, 70303, 4, 70313, 17, 70314, 29, 70320, 4, 70367],
    [5, 70368, 6, 70371, 5, 70379, 29, 70384, 8, 70394, 29, 70400, 5, 70402, 6, 70404, 29],
    [70405, 4, 70413, 29, 70415, 4, 70417, 29, 70419, 4, 70441, 29, 70442, 4, 70449, 29, 70450],
    [4, 70452, 29, 70453, 4, 70458, 29, 70459, 5, 70461, 4, 70462, 6, 70464, 5, 70465, 6, 70469],
    [29, 70471, 6, 70473, 29, 70475, 6, 70478, 29, 70480, 4, 70481, 29, 70487, 6, 70488, 29],
    [70493, 4, 70498, 6, 70500, 29, 70502, 5, 70509, 29, 70512, 5, 70517, 29, 70528, 4, 70538],
    [29, 70539, 4, 70540, 29, 70542, 4, 70543, 29, 70544, 4, 70582, 29, 70583, 4, 70584, 6],
    [70587, 5, 70593, 29, 70594, 6, 70595, 29, 70597, 6, 70598, 29, 70599, 6, 70603, 29, 70604],
    [6, 70606, 5, 70607, 6, 70608, 5, 70609, 4, 70610, 5, 70611, 4, 70612, 17, 70614, 29, 70615],
    [17, 70617, 29, 70625, 5, 70627, 29, 70656, 4, 70709, 6, 70712, 5, 70720, 6, 70722, 5],
    [70725, 6, 70726, 5, 70727, 4, 70731, 17, 70736, 8, 70746, 17, 70748, 29, 70749, 17, 70750],
    [5, 70751, 4, 70754, 29, 70784, 4, 70832, 6, 70835, 5, 70841, 6, 70842, 5, 70843, 6, 70847],
    [5, 70849, 6, 70850, 5, 70852, 4, 70854, 17, 70855, 4, 70856, 29, 70864, 8, 70874, 29],
    [71040, 4, 71087, 6, 71090, 5, 71094, 29, 71096, 6, 71100, 5, 71102, 6, 71103, 5, 71105, 17],
    [71128, 4, 71132, 5, 71134, 29, 71168, 4, 71216, 6, 71219, 5, 71227, 6, 71229, 5, 71230, 6],
    [71231, 5, 71233, 17, 71236, 4, 71237, 29, 71248, 8, 71258, 29, 71264, 17, 71277, 29, 71296],
    [4, 71339, 5, 71340, 6, 71341, 5, 71342, 6, 71344, 5, 71350, 6, 71351, 5, 71352, 4, 71353],
    [17, 71354, 29, 71360, 8, 71370, 29, 71376, 8, 71396, 29, 71424, 4, 71451, 29, 71453, 5],
    [71454, 6, 71455, 5, 71456, 6, 71458, 5, 71462, 6, 71463, 5, 71468, 29, 71472, 8, 71482, 10],
    [71484, 17, 71487, 21, 71488, 4, 71495, 29, 71680, 4, 71724, 6, 71727, 5, 71736, 6, 71737],
    [5, 71739, 17, 71740, 29, 71840, 0, 71872, 1, 71904, 8, 71914, 10, 71923, 29, 71935, 4],
    [71943, 29, 71945, 4, 71946, 29, 71948, 4, 71956, 29, 71957, 4, 71959, 29, 71960, 4, 71984],
    [6, 71990, 29, 71991, 6, 71993, 29, 71995, 5, 71997, 6, 71998, 5, 71999, 4, 72000, 6, 72001],
    [4, 72002, 6, 72003, 5, 72004, 17, 72007, 29, 72016, 8, 72026, 29, 72096, 4, 72104, 29],
    [72106, 4, 72145, 6, 72148, 5, 72152, 29, 72154, 5, 72156, 6, 72160, 5, 72161, 4, 72162, 17],
    [72163, 4, 72164, 6, 72165, 29, 72192, 4, 72193, 5, 72203, 4, 72243, 5, 72249, 6, 72250, 4],
    [72251, 5, 72255, 17, 72263, 5, 72264, 29, 72272, 4, 72273, 5, 72279, 6, 72281, 5, 72284, 4],
    [72330, 5, 72343, 6, 72344, 5, 72346, 17, 72349, 4, 72350, 17, 72355, 29, 72368, 4, 72441],
    [29, 72448, 17, 72458, 29, 72544, 5, 72545, 6, 72546, 5, 72549, 6, 72550, 5, 72551, 6],
    [72552, 29, 72640, 4, 72673, 17, 72674, 29, 72688, 8, 72698, 29, 72704, 4, 72713, 29, 72714],
    [4, 72751, 6, 72752, 5, 72759, 29, 72760, 5, 72766, 6, 72767, 5, 72768, 4, 72769, 17, 72774],
    [29, 72784, 8, 72794, 10, 72813, 29, 72816, 17, 72818, 4, 72848, 29, 72850, 5, 72872, 29],
    [72873, 6, 72874, 5, 72881, 6, 72882, 5, 72884, 6, 72885, 5, 72887, 29, 72960, 4, 72967, 29],
    [72968, 4, 72970, 29, 72971, 4, 73009, 5, 73015, 29, 73018, 5, 73019, 29, 73020, 5, 73022],
    [29, 73023, 5, 73030, 4, 73031, 5, 73032, 29, 73040, 8, 73050, 29, 73056, 4, 73062, 29],
    [73063, 4, 73065, 29, 73066, 4, 73098, 6, 73103, 29, 73104, 5, 73106, 29, 73107, 6, 73109],
    [5, 73110, 6, 73111, 5, 73112, 4, 73113, 29, 73120, 8, 73130, 29, 73136, 4, 73177, 3, 73178],
    [4, 73180, 29, 73184, 8, 73194, 29, 73440, 4, 73459, 5, 73461, 6, 73463, 17, 73465, 29],
    [73472, 5, 73474, 4, 73475, 6, 73476, 4, 73489, 29, 73490, 4, 73524, 6, 73526, 5, 73531, 29],
    [73534, 6, 73536, 5, 73537, 6, 73538, 5, 73539, 17, 73552, 8, 73562, 5, 73563, 29, 73648, 4],
    [73649, 29, 73664, 10, 73685, 21, 73693, 19, 73697, 21, 73714, 29, 73727, 17]]

def categoriesTo10FFFF : List (List Nat) := [
    [73728, 4, 74650, 29, 74752, 9, 74863, 29, 74864, 17, 74869, 29, 74880, 4, 75076, 29, 77712],
    [4, 77809, 17, 77811, 29, 77824, 4, 78896, 26, 78912, 5, 78913, 4, 78919, 5, 78934, 29],
    [78944, 4, 82939, 29, 82944, 4, 83527, 29, 90368, 4, 90398, 5, 90410, 6, 90413, 5, 90416, 8],
    [90426, 29, 92160, 4, 92729, 29, 92736, 4, 92767, 29, 92768, 8, 92778, 29, 92782, 17, 92784],
    [4, 92863, 29, 92864, 8, 92874, 29, 92880, 4, 92910, 29, 92912, 5, 92917, 17, 92918, 29],
    [92928, 4, 92976, 5, 92983, 17, 92988, 21, 92992, 3, 92996, 17, 92997, 21, 92998, 29, 93008],
    [8, 93018, 29, 93019, 10, 93026, 29, 93027, 4, 93048, 29, 93053, 4, 93072, 29, 93504, 3],
    [93507, 4, 93547, 3, 93549, 17, 93552, 8, 93562, 29, 93760, 0, 93792, 1, 93824, 10, 93847],
    [17, 93851, 29, 93856, 0, 93881, 29, 93883, 1, 93908, 29, 93952, 4, 94027, 29, 94031, 5],
    [94032, 4, 94033, 6, 94088, 29, 94095, 5, 94099, 3, 94112, 29, 94176, 3, 94178, 17, 94179],
    [3, 94180, 5, 94181, 29, 94192, 6, 94194, 3, 94196, 9, 94199, 29, 94208, 4, 101590, 29],
    [101631, 4, 101663, 29, 101760, 4, 101875, 29, 110576, 3, 110580, 29, 110581, 3, 110588, 29],
    [110589, 3, 110591, 29, 110592, 4, 110883, 29, 110898, 4, 110899, 29, 110928, 4, 110931, 29],
    [110933, 4, 110934, 29, 110948, 4, 110952, 29, 110960, 4, 111356, 29, 113664, 4, 113771, 29],
    [113776, 4, 113789, 29, 113792, 4, 113801, 29, 113808, 4, 113818, 29, 113820, 21, 113821, 5],
    [113823, 17, 113824, 26, 113828, 29, 117760, 21, 118000, 8, 118010, 21, 118013, 29, 118016],
    [21, 118452, 29, 118458, 21, 118481, 29, 118496, 21, 118512, 18, 118513, 29, 118528, 5],
    [118574, 29, 118576, 5, 118599, 29, 118608, 21, 118724, 29, 118784, 21, 119030, 29, 119040],
    [21, 119079, 29, 119081, 21, 119141, 6, 119143, 5, 119146, 21, 119149, 6, 119155, 26],
    [119163, 5, 119171, 21, 119173, 5, 119180, 21, 119210, 5, 119214, 21, 119275, 29, 119296],
    [21, 119362, 5, 119365, 21, 119366, 29, 119488, 10, 119508, 29, 119520, 10, 119540, 29],
    [119552, 21, 119639, 29, 119648, 10, 119673, 29, 119808, 0, 119834, 1, 119860, 0, 119886, 1],
    [119893, 29, 119894, 1, 119912, 0, 119938, 1, 119964, 0, 119965, 29, 119966, 0, 119968, 29],
    [119970, 0, 119971, 29, 119973, 0, 119975, 29, 119977, 0, 119981, 29, 119982, 0, 119990, 1],
    [119994, 29, 119995, 1, 119996, 29, 119997, 1, 120004, 29, 120005, 1, 120016, 0, 120042, 1],
    [120068, 0, 120070, 29, 120071, 0, 120075, 29, 120077, 0, 120085, 29, 120086, 0, 120093, 29],
    [120094, 1, 120120, 0, 120122, 29, 120123, 0, 120127, 29, 120128, 0, 120133, 29, 120134, 0],
    [120135, 29, 120138, 0, 120145, 29, 120146, 1, 120172, 0, 120198, 1, 120224, 0, 120250, 1],
    [120276, 0, 120302, 1, 120328, 0, 120354, 1, 120380, 0, 120406, 1, 120432, 0, 120458, 1],
    [120486, 29, 120488, 0, 120513, 18, 120514, 1, 120539, 18, 120540, 1, 120546, 0, 120571, 18],
    [120572, 1, 120597, 18, 120598, 1, 120604, 0, 120629, 18, 120630, 1, 120655, 18, 120656, 1],
    [120662, 0, 120687, 18, 120688, 1, 120713, 18, 120714, 1, 120720, 0, 120745, 18, 120746, 1],
    [120771, 18, 120772, 1, 120778, 0, 120779, 1, 120780, 29, 120782, 8, 120832, 21, 121344, 5],
    [121399, 21, 121403, 5, 121453, 21, 121461, 5, 121462, 21, 121476, 5, 121477, 21, 121479],
    [17, 121484, 29, 121499, 5, 121504, 29, 121505, 5, 121520, 29, 122624, 1, 122634, 4, 122635],
    [1, 122655, 29, 122661, 1, 122667, 29, 122880, 5, 122887, 29, 122888, 5, 122905, 29, 122907],
    [5, 122914, 29, 122915, 5, 122917, 29, 122918, 5, 122923, 29, 122928, 3, 122990, 29, 123023],
    [5, 123024, 29, 123136, 4, 123181, 29, 123184, 5, 123191, 3, 123198, 29, 123200, 8, 123210],
    [29, 123214, 4, 123215, 21, 123216, 29, 123536, 4, 123566, 5, 123567, 29, 123584, 4, 123628],
    [5, 123632, 8, 123642, 29, 123647, 19, 123648, 29, 124112, 4, 124139, 3, 124140, 5, 124144],
    [8, 124154, 29, 124368, 4, 124398, 5, 124400, 4, 124401, 8, 124411, 29, 124415, 17, 124416],
    [29, 124608, 4, 124639, 29, 124640, 4, 124643, 5, 124644, 4, 124646, 5, 124647, 4, 124654],
    [5, 124656, 4, 124661, 5, 124662, 29, 124670, 4, 124671, 3, 124672, 29, 124896, 4, 124903],
    [29, 124904, 4, 124908, 29, 124909, 4, 124911, 29, 124912, 4, 124927, 29, 124928, 4, 125125],
    [29, 125127, 10, 125136, 5, 125143, 29, 125184, 0, 125218, 1, 125252, 5, 125259, 3, 125260],
    [29, 125264, 8, 125274, 29, 125278, 17, 125280, 29, 126065, 10, 126124, 21, 126125, 10],
    [126128, 19, 126129, 10, 126133, 29, 126209, 10, 126254, 21, 126255, 10, 126270, 29, 126464],
    [4, 126468, 29, 126469, 4, 126496, 29, 126497, 4, 126499, 29, 126500, 4, 126501, 29, 126503],
    [4, 126504, 29, 126505, 4, 126515, 29, 126516, 4, 126520, 29, 126521, 4, 126522, 29, 126523],
    [4, 126524, 29, 126530, 4, 126531, 29, 126535, 4, 126536, 29, 126537, 4, 126538, 29, 126539],
    [4, 126540, 29, 126541, 4, 126544, 29, 126545, 4, 126547, 29, 126548, 4, 126549, 29, 126551],
    [4, 126552, 29, 126553, 4, 126554, 29, 126555, 4, 126556, 29, 126557, 4, 126558, 29, 126559],
    [4, 126560, 29, 126561, 4, 126563, 29, 126564, 4, 126565, 29, 126567, 4, 126571, 29, 126572],
    [4, 126579, 29, 126580, 4, 126584, 29, 126585, 4, 126589, 29, 126590, 4, 126591, 29, 126592],
    [4, 126602, 29, 126603, 4, 126620, 29, 126625, 4, 126628, 29, 126629, 4, 126634, 29, 126635],
    [4, 126652, 29, 126704, 18, 126706, 29, 126976, 21, 127020, 29, 127024, 21, 127124, 29],
    [127136, 21, 127151, 29, 127153, 21, 127168, 29, 127169, 21, 127184, 29, 127185, 21, 127222],
    [29, 127232, 10, 127245, 21, 127406, 29, 127462, 21, 127491, 29, 127504, 21, 127548, 29],
    [127552, 21, 127561, 29, 127568, 21, 127570, 29, 127584, 21, 127590, 29, 127744, 21, 127995],
    [20, 128000, 21, 128729, 29, 128732, 21, 128749, 29, 128752, 21, 128765, 29, 128768, 21],
    [128986, 29, 128992, 21, 129004, 29, 129008, 21, 129009, 29, 129024, 21, 129036, 29, 129040],
    [21, 129096, 29, 129104, 21, 129114, 29, 129120, 21, 129160, 29, 129168, 21, 129198, 29],
    [129200, 21, 129212, 29, 129216, 21, 129218, 29, 129232, 18, 129241, 29, 129280, 21, 129624],
    [29, 129632, 21, 129646, 29, 129648, 21, 129661, 29, 129664, 21, 129675, 29, 129678, 21],
    [129735, 29, 129736, 21, 129737, 29, 129741, 21, 129757, 29, 129759, 21, 129771, 29, 129775],
    [21, 129785, 29, 129792, 21, 129939, 29, 129940, 21, 130032, 8, 130042, 21, 130043, 29],
    [131072, 4, 173792, 29, 173824, 4, 178206, 29, 178208, 4, 183982, 29, 183984, 4, 191457, 29],
    [191472, 4, 192094, 29, 194560, 4, 195102, 29, 196608, 4, 201547, 29, 201552, 4, 210042, 29],
    [917505, 26, 917506, 29, 917536, 26, 917632, 29, 917760, 5, 918000, 29, 983040, 28, 1048574],
    [29, 1048576, 28, 1114110, 29]]

/-- The number of the category of each stretch of code points. -/
def category : Table :=
  Table.ofRows (categoriesTo7FF ++ categoriesToFFF ++ categoriesTo1FFF ++ categoriesTo2FFF ++
    categoriesToFFFF ++ categoriesTo11FFF ++ categoriesTo10FFFF)

def scriptsTo1FFF : List (List Nat) := [
    [0, 25, 65, 74, 91, 25, 97, 74, 123, 25, 170, 74, 171, 25, 186, 74, 187, 25, 192, 74, 215],
    [25, 216, 74, 247, 25, 248, 74, 697, 25, 736, 74, 741, 25, 746, 13, 748, 25, 768, 58, 880],
    [45, 884, 25, 885, 45, 888, 174, 890, 45, 894, 25, 895, 45, 896, 174, 900, 45, 901, 25, 902],
    [45, 903, 25, 904, 45, 907, 174, 908, 45, 909, 174, 910, 45, 930, 174, 931, 45, 994, 26],
    [1008, 45, 1024, 30, 1157, 58, 1159, 30, 1328, 174, 1329, 4, 1367, 174, 1369, 4, 1419, 174],
    [1421, 4, 1424, 174, 1425, 55, 1480, 174, 1488, 55, 1515, 174, 1519, 55, 1525, 174, 1536, 3],
    [1541, 25, 1542, 3, 1548, 25, 1549, 3, 1563, 25, 1564, 3, 1567, 25, 1568, 3, 1600, 25, 1601],
    [3, 1611, 58, 1622, 3, 1648, 58, 1649, 3, 1757, 25, 1758, 3, 1792, 145, 1806, 174, 1807],
    [145, 1867, 174, 1869, 145, 1872, 3, 1920, 157, 1970, 174, 1984, 105, 2043, 174, 2045, 105],
    [2048, 131, 2094, 174, 2096, 131, 2111, 174, 2112, 85, 2140, 174, 2142, 85, 2143, 174, 2144],
    [145, 2155, 174, 2160, 3, 2194, 174, 2199, 3, 2274, 25, 2275, 3, 2304, 32, 2385, 58, 2389],
    [32, 2404, 25, 2406, 32, 2432, 10, 2436, 174, 2437, 10, 2445, 174, 2447, 10, 2449, 174],
    [2451, 10, 2473, 174, 2474, 10, 2481, 174, 2482, 10, 2483, 174, 2486, 10, 2490, 174, 2492],
    [10, 2501, 174, 2503, 10, 2505, 174, 2507, 10, 2511, 174, 2519, 10, 2520, 174, 2524, 10],
    [2526, 174, 2527, 10, 2532, 174, 2534, 10, 2559, 174, 2561, 48, 2564, 174, 2565, 48, 2571],
    [174, 2575, 48, 2577, 174, 2579, 48, 2601, 174, 2602, 48, 2609, 174, 2610, 48, 2612, 174],
    [2613, 48, 2615, 174, 2616, 48, 2618, 174, 2620, 48, 2621, 174, 2622, 48, 2627, 174, 2631],
    [48, 2633, 174, 2635, 48, 2638, 174, 2641, 48, 2642, 174, 2649, 48, 2653, 174, 2654, 48],
    [2655, 174, 2662, 48, 2679, 174, 2689, 46, 2692, 174, 2693, 46, 2702, 174, 2703, 46, 2706],
    [174, 2707, 46, 2729, 174, 2730, 46, 2737, 174, 2738, 46, 2740, 174, 2741, 46, 2746, 174],
    [2748, 46, 2758, 174, 2759, 46, 2762, 174, 2763, 46, 2766, 174, 2768, 46, 2769, 174, 2784],
    [46, 2788, 174, 2790, 46, 2802, 174, 2809, 46, 2816, 174, 2817, 120, 2820, 174, 2821, 120],
    [2829, 174, 2831, 120, 2833, 174, 2835, 120, 2857, 174, 2858, 120, 2865, 174, 2866, 120],
    [2868, 174, 2869, 120, 2874, 174, 2876, 120, 2885, 174, 2887, 120, 2889, 174, 2891, 120],
    [2894, 174, 2901, 120, 2904, 174, 2908, 120, 2910, 174, 2911, 120, 2916, 174, 2918, 120],
    [2936, 174, 2946, 153, 2948, 174, 2949, 153, 2955, 174, 2958, 153, 2961, 174, 2962, 153],
    [2966, 174, 2969, 153, 2971, 174, 2972, 153, 2973, 174, 2974, 153, 2976, 174, 2979, 153],
    [2981, 174, 2984, 153, 2987, 174, 2990, 153, 3002, 174, 3006, 153, 3011, 174, 3014, 153],
    [3017, 174, 3018, 153, 3022, 174, 3024, 153, 3025, 174, 3031, 153, 3032, 174, 3046, 153],
    [3067, 174, 3072, 156, 3085, 174, 3086, 156, 3089, 174, 3090, 156, 3113, 174, 3114, 156],
    [3130, 174, 3132, 156, 3141, 174, 3142, 156, 3145, 174, 3146, 156, 3150, 174, 3157, 156],
    [3159, 174, 3160, 156, 3163, 174, 3164, 156, 3166, 174, 3168, 156, 3172, 174, 3174, 156],
    [3184, 174, 3191, 156, 3200, 63, 3213, 174, 3214, 63, 3217, 174, 3218, 63, 3241, 174, 3242],
    [63, 3252, 174, 3253, 63, 3258, 174, 3260, 63, 3269, 174, 3270, 63, 3273, 174, 3274, 63],
    [3278, 174, 3285, 63, 3287, 174, 3292, 63, 3295, 174, 3296, 63, 3300, 174, 3302, 63, 3312],
    [174, 3313, 63, 3316, 174, 3328, 84, 3341, 174, 3342, 84, 3345, 174, 3346, 84, 3397, 174],
    [3398, 84, 3401, 174, 3402, 84, 3408, 174, 3412, 84, 3428, 174, 3430, 84, 3456, 174, 3457],
    [138, 3460, 174, 3461, 138, 3479, 174, 3482, 138, 3506, 174, 3507, 138, 3516, 174, 3517],
    [138, 3518, 174, 3520, 138, 3527, 174, 3530, 138, 3531, 174, 3535, 138, 3541, 174, 3542],
    [138, 3543, 174, 3544, 138, 3552, 174, 3558, 138, 3568, 174, 3570, 138, 3573, 174, 3585],
    [158, 3643, 174, 3647, 25, 3648, 158, 3676, 174, 3713, 73, 3715, 174, 3716, 73, 3717, 174],
    [3718, 73, 3723, 174, 3724, 73, 3748, 174, 3749, 73, 3750, 174, 3751, 73, 3774, 174, 3776],
    [73, 3781, 174, 3782, 73, 3783, 174, 3784, 73, 3791, 174, 3792, 73, 3802, 174, 3804, 73],
    [3808, 174, 3840, 159, 3912, 174, 3913, 159, 3949, 174, 3953, 159, 3992, 174, 3993, 159],
    [4029, 174, 4030, 159, 4045, 174, 4046, 159, 4053, 25, 4057, 159, 4059, 174, 4096, 99, 4256],
    [41, 4294, 174, 4295, 41, 4296, 174, 4301, 41, 4302, 174, 4304, 41, 4347, 25, 4348, 41],
    [4352, 51, 4608, 39, 4681, 174, 4682, 39, 4686, 174, 4688, 39, 4695, 174, 4696, 39, 4697],
    [174, 4698, 39, 4702, 174, 4704, 39, 4745, 174, 4746, 39, 4750, 174, 4752, 39, 4785, 174],
    [4786, 39, 4790, 174, 4792, 39, 4799, 174, 4800, 39, 4801, 174, 4802, 39, 4806, 174, 4808],
    [39, 4823, 174, 4824, 39, 4881, 174, 4882, 39, 4886, 174, 4888, 39, 4955, 174, 4957, 39],
    [4989, 174, 4992, 39, 5018, 174, 5024, 23, 5110, 174, 5112, 23, 5118, 174, 5120, 18, 5760],
    [108, 5789, 174, 5792, 130, 5867, 25, 5870, 130, 5881, 174, 5888, 146, 5910, 174, 5919, 146],
    [5920, 53, 5941, 25, 5943, 174, 5952, 17, 5972, 174, 5984, 147, 5997, 174, 5998, 147, 6001],
    [174, 6002, 147, 6004, 174, 6016, 69, 6110, 174, 6112, 69, 6122, 174, 6128, 69, 6138, 174],
    [6144, 96, 6146, 25, 6148, 96, 6149, 25, 6150, 96, 6170, 174, 6176, 96, 6265, 174, 6272, 96],
    [6315, 174, 6320, 18, 6390, 174, 6400, 76, 6431, 174, 6432, 76, 6444, 174, 6448, 76, 6460],
    [174, 6464, 76, 6465, 174, 6468, 76, 6480, 148, 6510, 174, 6512, 148, 6517, 174, 6528, 103],
    [6572, 174, 6576, 103, 6602, 174, 6608, 103, 6619, 174, 6622, 103, 6624, 69, 6656, 16, 6684],
    [174, 6686, 16, 6688, 149, 6751, 174, 6752, 149, 6781, 174, 6783, 149, 6794, 174, 6800, 149],
    [6810, 174, 6816, 149, 6830, 174, 6832, 58, 6878, 174, 6880, 58, 6892, 174, 6912, 6, 6989],
    [174, 6990, 6, 7040, 142, 7104, 9, 7156, 174, 7164, 9, 7168, 75, 7224, 174, 7227, 75, 7242],
    [174, 7245, 75, 7248, 109, 7296, 30, 7307, 174, 7312, 41, 7355, 174, 7357, 41, 7360, 142],
    [7368, 174, 7376, 58, 7379, 25, 7380, 58, 7393, 25, 7394, 58, 7401, 25, 7405, 58, 7406, 25],
    [7412, 58, 7413, 25, 7416, 58, 7418, 25, 7419, 174, 7424, 74, 7462, 45, 7467, 30, 7468, 74],
    [7517, 45, 7522, 74, 7526, 45, 7531, 74, 7544, 30, 7545, 74, 7615, 45, 7616, 58, 7680, 74],
    [7936, 45, 7958, 174, 7960, 45, 7966, 174, 7968, 45, 8006, 174, 8008, 45, 8014, 174, 8016],
    [45, 8024, 174, 8025, 45, 8026, 174, 8027, 45, 8028, 174, 8029, 45, 8030, 174, 8031, 45],
    [8062, 174, 8064, 45, 8117, 174, 8118, 45, 8133, 174, 8134, 45, 8148, 174, 8150, 45, 8156],
    [174, 8157, 45, 8176, 174, 8178, 45, 8181, 174, 8182, 45, 8191, 174]]

def scriptsTo11FFF : List (List Nat) := [
    [8192, 25, 8204, 58, 8206, 25, 8293, 174, 8294, 25, 8305, 74, 8306, 174, 8308, 25, 8319, 74],
    [8320, 25, 8335, 174, 8336, 74, 8349, 174, 8352, 25, 8386, 174, 8400, 58, 8433, 174, 8448],
    [25, 8486, 45, 8487, 25, 8490, 74, 8492, 25, 8498, 74, 8499, 25, 8526, 74, 8527, 25, 8544],
    [74, 8585, 25, 8588, 174, 8592, 25, 9258, 174, 9280, 25, 9291, 174, 9312, 25, 10240, 15],
    [10496, 25, 11124, 174, 11126, 25, 11264, 42, 11360, 74, 11392, 26, 11508, 174, 11513, 26],
    [11520, 41, 11558, 174, 11559, 41, 11560, 174, 11565, 41, 11566, 174, 11568, 160, 11624],
    [174, 11631, 160, 11633, 174, 11647, 160, 11648, 39, 11671, 174, 11680, 39, 11687, 174],
    [11688, 39, 11695, 174, 11696, 39, 11703, 174, 11704, 39, 11711, 174, 11712, 39, 11719, 174],
    [11720, 39, 11727, 174, 11728, 39, 11735, 174, 11736, 39, 11743, 174, 11744, 30, 11776, 25],
    [11870, 174, 11904, 50, 11930, 174, 11931, 50, 12020, 174, 12032, 50, 12246, 174, 12272, 25],
    [12293, 50, 12294, 25, 12295, 50, 12296, 25, 12321, 50, 12330, 58, 12334, 51, 12336, 25],
    [12344, 50, 12348, 25, 12352, 174, 12353, 56, 12439, 174, 12441, 58, 12443, 25, 12445, 56],
    [12448, 25, 12449, 64, 12539, 25, 12541, 64, 12544, 174, 12549, 13, 12592, 174, 12593, 51],
    [12687, 174, 12688, 25, 12704, 13, 12736, 25, 12774, 174, 12783, 25, 12784, 64, 12800, 51],
    [12831, 174, 12832, 25, 12896, 51, 12927, 25, 13008, 64, 13055, 25, 13056, 64, 13144, 25],
    [13312, 50, 19904, 25, 19968, 50, 40960, 172, 42125, 174, 42128, 172, 42183, 174, 42192, 79],
    [42240, 167, 42540, 174, 42560, 30, 42656, 7, 42744, 174, 42752, 25, 42786, 74, 42888, 25],
    [42891, 74, 42973, 174, 42993, 74, 43008, 144, 43053, 174, 43056, 25, 43066, 174, 43072],
    [126, 43128, 174, 43136, 132, 43206, 174, 43214, 132, 43226, 174, 43232, 32, 43264, 66],
    [43310, 25, 43311, 66, 43312, 129, 43348, 174, 43359, 129, 43360, 51, 43389, 174, 43392, 61],
    [43470, 174, 43471, 25, 43472, 61, 43482, 174, 43486, 61, 43488, 99, 43519, 174, 43520, 22],
    [43575, 174, 43584, 22, 43598, 174, 43600, 22, 43610, 174, 43612, 22, 43616, 99, 43648, 150],
    [43715, 174, 43739, 150, 43744, 90, 43767, 174, 43777, 39, 43783, 174, 43785, 39, 43791],
    [174, 43793, 39, 43799, 174, 43808, 39, 43815, 174, 43816, 39, 43823, 174, 43824, 74, 43867],
    [25, 43868, 74, 43877, 45, 43878, 74, 43882, 25, 43884, 174, 43888, 23, 43968, 90, 44014],
    [174, 44016, 90, 44026, 174, 44032, 51, 55204, 174, 55216, 51, 55239, 174, 55243, 51, 55292],
    [174, 63744, 50, 64110, 174, 64112, 50, 64218, 174, 64256, 74, 64263, 174, 64275, 4, 64280],
    [174, 64285, 55, 64311, 174, 64312, 55, 64317, 174, 64318, 55, 64319, 174, 64320, 55, 64322],
    [174, 64323, 55, 64325, 174, 64326, 55, 64336, 3, 64830, 25, 64832, 3, 64976, 174, 65008, 3],
    [65024, 58, 65040, 25, 65050, 174, 65056, 58, 65070, 30, 65072, 25, 65107, 174, 65108, 25],
    [65127, 174, 65128, 25, 65132, 174, 65136, 3, 65141, 174, 65142, 3, 65277, 174, 65279, 25],
    [65280, 174, 65281, 25, 65313, 74, 65339, 25, 65345, 74, 65371, 25, 65382, 64, 65392, 25],
    [65393, 64, 65438, 25, 65440, 51, 65471, 174, 65474, 51, 65480, 174, 65482, 51, 65488, 174],
    [65490, 51, 65496, 174, 65498, 51, 65501, 174, 65504, 25, 65511, 174, 65512, 25, 65519, 174],
    [65529, 25, 65534, 174, 65536, 78, 65548, 174, 65549, 78, 65575, 174, 65576, 78, 65595, 174],
    [65596, 78, 65598, 174, 65599, 78, 65614, 174, 65616, 78, 65630, 174, 65664, 78, 65787, 174],
    [65792, 25, 65795, 174, 65799, 25, 65844, 174, 65847, 25, 65856, 45, 65935, 174, 65936, 25],
    [65949, 174, 65952, 45, 65953, 174, 66000, 25, 66045, 58, 66046, 174, 66176, 80, 66205, 174],
    [66208, 19, 66257, 174, 66272, 58, 66273, 25, 66300, 174, 66304, 112, 66340, 174, 66349],
    [112, 66352, 43, 66379, 174, 66384, 114, 66427, 174, 66432, 166, 66462, 174, 66463, 166],
    [66464, 115, 66500, 174, 66504, 115, 66518, 174, 66560, 31, 66640, 134, 66688, 122, 66718],
    [174, 66720, 122, 66730, 174, 66736, 121, 66772, 174, 66776, 121, 66812, 174, 66816, 37],
    [66856, 174, 66864, 20, 66916, 174, 66927, 20, 66928, 168, 66939, 174, 66940, 168, 66955],
    [174, 66956, 168, 66963, 174, 66964, 168, 66966, 174, 66967, 168, 66978, 174, 66979, 168],
    [66994, 174, 66995, 168, 67002, 174, 67003, 168, 67005, 174, 67008, 162, 67060, 174, 67072],
    [77, 67383, 174, 67392, 77, 67414, 174, 67424, 77, 67432, 174, 67456, 74, 67462, 174, 67463],
    [74, 67505, 174, 67506, 74, 67515, 174, 67584, 28, 67590, 174, 67592, 28, 67593, 174, 67594],
    [28, 67638, 174, 67639, 28, 67641, 174, 67644, 28, 67645, 174, 67647, 28, 67648, 57, 67670],
    [174, 67671, 57, 67680, 124, 67712, 100, 67743, 174, 67751, 100, 67760, 174, 67808, 54],
    [67827, 174, 67828, 54, 67830, 174, 67835, 54, 67840, 127, 67868, 174, 67871, 127, 67872],
    [81, 67898, 174, 67903, 81, 67904, 136, 67930, 174, 67968, 93, 68000, 92, 68024, 174, 68028],
    [92, 68048, 174, 68050, 92, 68096, 67, 68100, 174, 68101, 67, 68103, 174, 68108, 67, 68116],
    [174, 68117, 67, 68120, 174, 68121, 67, 68150, 174, 68152, 67, 68155, 174, 68159, 67, 68169],
    [174, 68176, 67, 68185, 174, 68192, 117, 68224, 113, 68256, 174, 68288, 86, 68327, 174],
    [68331, 86, 68343, 174, 68352, 5, 68406, 174, 68409, 5, 68416, 60, 68438, 174, 68440, 60],
    [68448, 59, 68467, 174, 68472, 59, 68480, 128, 68498, 174, 68505, 128, 68509, 174, 68521],
    [128, 68528, 174, 68608, 118, 68681, 174, 68736, 111, 68787, 174, 68800, 111, 68851, 174],
    [68858, 111, 68864, 52, 68904, 174, 68912, 52, 68922, 174, 68928, 40, 68966, 174, 68969, 40],
    [68998, 174, 69006, 40, 69008, 174, 69216, 3, 69247, 174, 69248, 171, 69290, 174, 69291],
    [171, 69294, 174, 69296, 171, 69298, 174, 69314, 3, 69320, 174, 69328, 3, 69337, 174, 69370],
    [3, 69376, 116, 69416, 174, 69424, 139, 69466, 174, 69488, 119, 69514, 174, 69552, 24],
    [69580, 174, 69600, 38, 69623, 174, 69632, 14, 69710, 174, 69714, 14, 69750, 174, 69759, 14],
    [69760, 62, 69827, 174, 69837, 62, 69838, 174, 69840, 140, 69865, 174, 69872, 140, 69882],
    [174, 69888, 21, 69941, 174, 69942, 21, 69960, 174, 69968, 82, 70007, 174, 70016, 133],
    [70112, 174, 70113, 138, 70133, 174, 70144, 70, 70162, 174, 70163, 70, 70210, 174, 70272],
    [98, 70279, 174, 70280, 98, 70281, 174, 70282, 98, 70286, 174, 70287, 98, 70302, 174, 70303],
    [98, 70314, 174, 70320, 71, 70379, 174, 70384, 71, 70394, 174, 70400, 44, 70404, 174, 70405],
    [44, 70413, 174, 70415, 44, 70417, 174, 70419, 44, 70441, 174, 70442, 44, 70449, 174, 70450],
    [44, 70452, 174, 70453, 44, 70458, 174, 70459, 58, 70460, 44, 70469, 174, 70471, 44, 70473],
    [174, 70475, 44, 70478, 174, 70480, 44, 70481, 174, 70487, 44, 70488, 174, 70493, 44, 70500],
    [174, 70502, 44, 70509, 174, 70512, 44, 70517, 174, 70528, 165, 70538, 174, 70539, 165],
    [70540, 174, 70542, 165, 70543, 174, 70544, 165, 70582, 174, 70583, 165, 70593, 174, 70594],
    [165, 70595, 174, 70597, 165, 70598, 174, 70599, 165, 70603, 174, 70604, 165, 70614, 174],
    [70615, 165, 70617, 174, 70625, 165, 70627, 174, 70656, 104, 70748, 174, 70749, 104, 70754],
    [174, 70784, 161, 70856, 174, 70864, 161, 70874, 174, 71040, 135, 71094, 174, 71096, 135],
    [71134, 174, 71168, 95, 71237, 174, 71248, 95, 71258, 174, 71264, 96, 71277, 174, 71296],
    [152, 71354, 174, 71360, 152, 71370, 174, 71376, 99, 71396, 174, 71424, 1, 71451, 174],
    [71453, 1, 71468, 174, 71472, 1, 71495, 174, 71680, 34, 71740, 174, 71840, 170, 71923, 174],
    [71935, 170, 71936, 33, 71943, 174, 71945, 33, 71946, 174, 71948, 33, 71956, 174, 71957, 33],
    [71959, 174, 71960, 33, 71990, 174, 71991, 33, 71993, 174, 71995, 33, 72007, 174, 72016, 33],
    [72026, 174, 72096, 102, 72104, 174, 72106, 102, 72152, 174, 72154, 102, 72165, 174, 72192],
    [173, 72264, 174, 72272, 141, 72355, 174, 72368, 18, 72384, 125, 72441, 174, 72448, 32],
    [72458, 174, 72544, 133, 72552, 174, 72640, 143, 72674, 174, 72688, 143, 72698, 174, 72704],
    [12, 72713, 174, 72714, 12, 72759, 174, 72760, 12, 72774, 174, 72784, 12, 72813, 174, 72816],
    [87, 72848, 174, 72850, 87, 72872, 174, 72873, 87, 72887, 174, 72960, 88, 72967, 174, 72968],
    [88, 72970, 174, 72971, 88, 73015, 174, 73018, 88, 73019, 174, 73020, 88, 73022, 174, 73023],
    [88, 73032, 174, 73040, 88, 73050, 174, 73056, 47, 73062, 174, 73063, 47, 73065, 174, 73066],
    [47, 73103, 174, 73104, 47, 73106, 174, 73107, 47, 73113, 174, 73120, 47, 73130, 174, 73136],
    [163, 73180, 174, 73184, 163, 73194, 174, 73440, 83, 73465, 174, 73472, 65, 73489, 174],
    [73490, 65, 73531, 174, 73534, 65, 73563, 174, 73648, 79, 73649, 174, 73664, 153, 73714],
    [174, 73727, 153]]

def scriptsTo10FFFF : List (List Nat) := [
    [73728, 27, 74650, 174, 74752, 27, 74863, 174, 74864, 27, 74869, 174, 74880, 27, 75076, 174],
    [77712, 29, 77811, 174, 77824, 36, 78934, 174, 78944, 36, 82939, 174, 82944, 2, 83527, 174],
    [90368, 49, 90426, 174, 92160, 7, 92729, 174, 92736, 97, 92767, 174, 92768, 97, 92778, 174],
    [92782, 97, 92784, 154, 92863, 174, 92864, 154, 92874, 174, 92880, 8, 92910, 174, 92912, 8],
    [92918, 174, 92928, 123, 92998, 174, 93008, 123, 93018, 174, 93019, 123, 93026, 174, 93027],
    [123, 93048, 174, 93053, 123, 93072, 174, 93504, 72, 93562, 174, 93760, 89, 93851, 174],
    [93856, 11, 93881, 174, 93883, 11, 93908, 174, 93952, 94, 94027, 174, 94031, 94, 94088, 174],
    [94095, 94, 94112, 174, 94176, 155, 94177, 106, 94178, 50, 94180, 68, 94181, 174, 94192, 50],
    [94199, 174, 94208, 155, 101120, 68, 101590, 174, 101631, 68, 101632, 155, 101663, 174],
    [101760, 155, 101875, 174, 110576, 64, 110580, 174, 110581, 64, 110588, 174, 110589, 64],
    [110591, 174, 110592, 64, 110593, 56, 110880, 64, 110883, 174, 110898, 56, 110899, 174],
    [110928, 56, 110931, 174, 110933, 64, 110934, 174, 110948, 64, 110952, 174, 110960, 106],
    [111356, 174, 113664, 35, 113771, 174, 113776, 35, 113789, 174, 113792, 35, 113801, 174],
    [113808, 35, 113818, 174, 113820, 35, 113824, 25, 113828, 174, 117760, 25, 118013, 174],
    [118016, 25, 118452, 174, 118458, 25, 118481, 174, 118496, 25, 118513, 174, 118528, 58],
    [118574, 174, 118576, 58, 118599, 174, 118608, 25, 118724, 174, 118784, 25, 119030, 174],
    [119040, 25, 119079, 174, 119081, 25, 119143, 58, 119146, 25, 119163, 58, 119171, 25],
    [119173, 58, 119180, 25, 119210, 58, 119214, 25, 119275, 174, 119296, 45, 119366, 174],
    [119488, 25, 119508, 174, 119520, 25, 119540, 174, 119552, 25, 119639, 174, 119648, 25],
    [119673, 174, 119808, 25, 119893, 174, 119894, 25, 119965, 174, 119966, 25, 119968, 174],
    [119970, 25, 119971, 174, 119973, 25, 119975, 174, 119977, 25, 119981, 174, 119982, 25],
    [119994, 174, 119995, 25, 119996, 174, 119997, 25, 120004, 174, 120005, 25, 120070, 174],
    [120071, 25, 120075, 174, 120077, 25, 120085, 174, 120086, 25, 120093, 174, 120094, 25],
    [120122, 174, 120123, 25, 120127, 174, 120128, 25, 120133, 174, 120134, 25, 120135, 174],
    [120138, 25, 120145, 174, 120146, 25, 120486, 174, 120488, 25, 120780, 174, 120782, 25],
    [120832, 137, 121484, 174, 121499, 137, 121504, 174, 121505, 137, 121520, 174, 122624, 74],
    [122655, 174, 122661, 74, 122667, 174, 122880, 42, 122887, 174, 122888, 42, 122905, 174],
    [122907, 42, 122914, 174, 122915, 42, 122917, 174, 122918, 42, 122923, 174, 122928, 30],
    [122990, 174, 123023, 30, 123024, 174, 123136, 107, 123181, 174, 123184, 107, 123198, 174],
    [123200, 107, 123210, 174, 123214, 107, 123216, 174, 123536, 164, 123567, 174, 123584, 169],
    [123642, 174, 123647, 169, 123648, 174, 124112, 101, 124154, 174, 124368, 110, 124411, 174],
    [124415, 110, 124416, 174, 124608, 151, 124639, 174, 124640, 151, 124662, 174, 124670, 151],
    [124672, 174, 124896, 39, 124903, 174, 124904, 39, 124908, 174, 124909, 39, 124911, 174],
    [124912, 39, 124927, 174, 124928, 91, 125125, 174, 125127, 91, 125143, 174, 125184, 0],
    [125260, 174, 125264, 0, 125274, 174, 125278, 0, 125280, 174, 126065, 25, 126133, 174],
    [126209, 25, 126270, 174, 126464, 3, 126468, 174, 126469, 3, 126496, 174, 126497, 3, 126499],
    [174, 126500, 3, 126501, 174, 126503, 3, 126504, 174, 126505, 3, 126515, 174, 126516, 3],
    [126520, 174, 126521, 3, 126522, 174, 126523, 3, 126524, 174, 126530, 3, 126531, 174],
    [126535, 3, 126536, 174, 126537, 3, 126538, 174, 126539, 3, 126540, 174, 126541, 3, 126544],
    [174, 126545, 3, 126547, 174, 126548, 3, 126549, 174, 126551, 3, 126552, 174, 126553, 3],
    [126554, 174, 126555, 3, 126556, 174, 126557, 3, 126558, 174, 126559, 3, 126560, 174],
    [126561, 3, 126563, 174, 126564, 3, 126565, 174, 126567, 3, 126571, 174, 126572, 3, 126579],
    [174, 126580, 3, 126584, 174, 126585, 3, 126589, 174, 126590, 3, 126591, 174, 126592, 3],
    [126602, 174, 126603, 3, 126620, 174, 126625, 3, 126628, 174, 126629, 3, 126634, 174],
    [126635, 3, 126652, 174, 126704, 3, 126706, 174, 126976, 25, 127020, 174, 127024, 25],
    [127124, 174, 127136, 25, 127151, 174, 127153, 25, 127168, 174, 127169, 25, 127184, 174],
    [127185, 25, 127222, 174, 127232, 25, 127406, 174, 127462, 25, 127488, 56, 127489, 25],
    [127491, 174, 127504, 25, 127548, 174, 127552, 25, 127561, 174, 127568, 25, 127570, 174],
    [127584, 25, 127590, 174, 127744, 25, 128729, 174, 128732, 25, 128749, 174, 128752, 25],
    [128765, 174, 128768, 25, 128986, 174, 128992, 25, 129004, 174, 129008, 25, 129009, 174],
    [129024, 25, 129036, 174, 129040, 25, 129096, 174, 129104, 25, 129114, 174, 129120, 25],
    [129160, 174, 129168, 25, 129198, 174, 129200, 25, 129212, 174, 129216, 25, 129218, 174],
    [129232, 25, 129241, 174, 129280, 25, 129624, 174, 129632, 25, 129646, 174, 129648, 25],
    [129661, 174, 129664, 25, 129675, 174, 129678, 25, 129735, 174, 129736, 25, 129737, 174],
    [129741, 25, 129757, 174, 129759, 25, 129771, 174, 129775, 25, 129785, 174, 129792, 25],
    [129939, 174, 129940, 25, 130043, 174, 131072, 50, 173792, 174, 173824, 50, 178206, 174],
    [178208, 50, 183982, 174, 183984, 50, 191457, 174, 191472, 50, 192094, 174, 194560, 50],
    [195102, 174, 196608, 50, 201547, 174, 201552, 50, 210042, 174, 917505, 25, 917506, 174],
    [917536, 25, 917632, 174, 917760, 58, 918000, 174]]

/-- The number of the script of each stretch of code points, its place in `scriptNames`. -/
def script : Table :=
  Table.ofRows (scriptsTo1FFF ++ scriptsTo11FFF ++ scriptsTo10FFFF)

def scriptNames : Array String :=
  #["Adlam", "Ahom", "Anatolian_Hieroglyphs", "Arabic", "Armenian", "Avestan", "Balinese",
    "Bamum", "Bassa_Vah", "Batak", "Bengali", "Beria_Erfe", "Bhaiksuki", "Bopomofo", "Brahmi",
    "Braille", "Buginese", "Buhid", "Canadian_Aboriginal", "Carian", "Caucasian_Albanian",
    "Chakma", "Cham", "Cherokee", "Chorasmian", "Common", "Coptic", "Cuneiform", "Cypriot",
    "Cypro_Minoan", "Cyrillic", "Deseret", "Devanagari", "Dives_Akuru", "Dogra", "Duployan",
    "Egyptian_Hieroglyphs", "Elbasan", "Elymaic", "Ethiopic", "Garay", "Georgian",
    "Glagolitic", "Gothic", "Grantha", "Greek", "Gujarati", "Gunjala_Gondi", "Gurmukhi",
    "Gurung_Khema", "Han", "Hangul", "Hanifi_Rohingya", "Hanunoo", "Hatran", "Hebrew",
    "Hiragana", "Imperial_Aramaic", "Inherited", "Inscriptional_Pahlavi",
    "Inscriptional_Parthian", "Javanese", "Kaithi", "Kannada", "Katakana", "Kawi", "Kayah_Li",
    "Kharoshthi", "Khitan_Small_Script", "Khmer", "Khojki", "Khudawadi", "Kirat_Rai", "Lao",
    "Latin", "Lepcha", "Limbu", "Linear_A", "Linear_B", "Lisu", "Lycian", "Lydian", "Mahajani",
    "Makasar", "Malayalam", "Mandaic", "Manichaean", "Marchen", "Masaram_Gondi", "Medefaidrin",
    "Meetei_Mayek", "Mende_Kikakui", "Meroitic_Cursive", "Meroitic_Hieroglyphs", "Miao",
    "Modi", "Mongolian", "Mro", "Multani", "Myanmar", "Nabataean", "Nag_Mundari",
    "Nandinagari", "New_Tai_Lue", "Newa", "Nko", "Nushu", "Nyiakeng_Puachue_Hmong", "Ogham",
    "Ol_Chiki", "Ol_Onal", "Old_Hungarian", "Old_Italic", "Old_North_Arabian", "Old_Permic",
    "Old_Persian", "Old_Sogdian", "Old_South_Arabian", "Old_Turkic", "Old_Uyghur", "Oriya",
    "Osage", "Osmanya", "Pahawh_Hmong", "Palmyrene", "Pau_Cin_Hau", "Phags_Pa", "Phoenician",
    "Psalter_Pahlavi", "Rejang", "Runic", "Samaritan", "Saurashtra", "Sharada", "Shavian",
    "Siddham", "Sidetic", "SignWriting", "Sinhala", "Sogdian", "Sora_Sompeng", "Soyombo",
    "Sundanese", "Sunuwar", "Syloti_Nagri", "Syriac", "Tagalog", "Tagbanwa", "Tai_Le",
    "Tai_Tham", "Tai_Viet", "Tai_Yo", "Takri", "Tamil", "Tangsa", "Tangut", "Telugu", "Thaana",
    "Thai", "Tibetan", "Tifinagh", "Tirhuta", "Todhri", "Tolong_Siki", "Toto", "Tulu_Tigalari",
    "Ugaritic", "Vai", "Vithkuqi", "Wancho", "Warang_Citi", "Yezidi", "Yi", "Zanabazar_Square"]

def toLower : Table := Table.ofRows [
    [192, 214, 1, 224, 216, 222, 1, 248, 256, 302, 2, 257, 304, 304, 1, 105, 306, 310, 2, 307],
    [313, 327, 2, 314, 330, 374, 2, 331, 376, 376, 1, 255, 377, 381, 2, 378, 385, 385, 1, 595],
    [386, 388, 2, 387, 390, 390, 1, 596, 391, 391, 1, 392, 393, 394, 1, 598, 395, 395, 1, 396],
    [398, 398, 1, 477, 399, 399, 1, 601, 400, 400, 1, 603, 401, 401, 1, 402, 403, 403, 1, 608],
    [404, 404, 1, 611, 406, 406, 1, 617, 407, 407, 1, 616, 408, 408, 1, 409, 412, 412, 1, 623],
    [413, 413, 1, 626, 415, 415, 1, 629, 416, 420, 2, 417, 422, 422, 1, 640, 423, 423, 1, 424],
    [425, 425, 1, 643, 428, 428, 1, 429, 430, 430, 1, 648, 431, 431, 1, 432, 433, 434, 1, 650],
    [435, 437, 2, 436, 439, 439, 1, 658, 440, 440, 1, 441, 444, 444, 1, 445, 452, 452, 1, 454],
    [453, 453, 1, 454, 455, 455, 1, 457, 456, 456, 1, 457, 458, 458, 1, 460, 459, 475, 2, 460],
    [478, 494, 2, 479, 497, 497, 1, 499, 498, 500, 2, 499, 502, 502, 1, 405, 503, 503, 1, 447],
    [504, 542, 2, 505, 544, 544, 1, 414, 546, 562, 2, 547, 570, 570, 1, 11365, 571, 571, 1, 572],
    [573, 573, 1, 410, 574, 574, 1, 11366, 577, 577, 1, 578, 579, 579, 1, 384, 580, 580, 1, 649],
    [581, 581, 1, 652, 582, 590, 2, 583, 880, 882, 2, 881, 886, 886, 1, 887, 895, 895, 1, 1011],
    [902, 902, 1, 940, 904, 906, 1, 941, 908, 908, 1, 972, 910, 911, 1, 973, 913, 929, 1, 945],
    [931, 939, 1, 963, 975, 975, 1, 983, 984, 1006, 2, 985, 1012, 1012, 1, 952, 1015, 1015, 1],
    [1016, 1017, 1017, 1, 1010, 1018, 1018, 1, 1019, 1021, 1023, 1, 891, 1024, 1039, 1, 1104],
    [1040, 1071, 1, 1072, 1120, 1152, 2, 1121, 1162, 1214, 2, 1163, 1216, 1216, 1, 1231, 1217],
    [1229, 2, 1218, 1232, 1326, 2, 1233, 1329, 1366, 1, 1377, 4256, 4293, 1, 11520, 4295, 4295],
    [1, 11559, 4301, 4301, 1, 11565, 5024, 5103, 1, 43888, 5104, 5109, 1, 5112, 7305, 7305, 1],
    [7306, 7312, 7354, 1, 4304, 7357, 7359, 1, 4349, 7680, 7828, 2, 7681, 7838, 7838, 1, 223],
    [7840, 7934, 2, 7841, 7944, 7951, 1, 7936, 7960, 7965, 1, 7952, 7976, 7983, 1, 7968, 7992],
    [7999, 1, 7984, 8008, 8013, 1, 8000, 8025, 8031, 2, 8017, 8040, 8047, 1, 8032, 8072, 8079],
    [1, 8064, 8088, 8095, 1, 8080, 8104, 8111, 1, 8096, 8120, 8121, 1, 8112, 8122, 8123, 1],
    [8048, 8124, 8124, 1, 8115, 8136, 8139, 1, 8050, 8140, 8140, 1, 8131, 8152, 8153, 1, 8144],
    [8154, 8155, 1, 8054, 8168, 8169, 1, 8160, 8170, 8171, 1, 8058, 8172, 8172, 1, 8165, 8184],
    [8185, 1, 8056, 8186, 8187, 1, 8060, 8188, 8188, 1, 8179, 8486, 8486, 1, 969, 8490, 8490, 1],
    [107, 8491, 8491, 1, 229, 8498, 8498, 1, 8526, 8544, 8559, 1, 8560, 8579, 8579, 1, 8580],
    [9398, 9423, 1, 9424, 11264, 11311, 1, 11312, 11360, 11360, 1, 11361, 11362, 11362, 1, 619],
    [11363, 11363, 1, 7549, 11364, 11364, 1, 637, 11367, 11371, 2, 11368, 11373, 11373, 1, 593],
    [11374, 11374, 1, 625, 11375, 11375, 1, 592, 11376, 11376, 1, 594, 11378, 11378, 1, 11379],
    [11381, 11381, 1, 11382, 11390, 11391, 1, 575, 11392, 11490, 2, 11393, 11499, 11501, 2],
    [11500, 11506, 11506, 1, 11507, 42560, 42604, 2, 42561, 42624, 42650, 2, 42625, 42786],
    [42798, 2, 42787, 42802, 42862, 2, 42803, 42873, 42875, 2, 42874, 42877, 42877, 1, 7545],
    [42878, 42886, 2, 42879, 42891, 42891, 1, 42892, 42893, 42893, 1, 613, 42896, 42898, 2],
    [42897, 42902, 42920, 2, 42903, 42922, 42922, 1, 614, 42923, 42923, 1, 604, 42924, 42924, 1],
    [609, 42925, 42925, 1, 620, 42926, 42926, 1, 618, 42928, 42928, 1, 670, 42929, 42929, 1],
    [647, 42930, 42930, 1, 669, 42931, 42931, 1, 43859, 42932, 42946, 2, 42933, 42948, 42948, 1],
    [42900, 42949, 42949, 1, 642, 42950, 42950, 1, 7566, 42951, 42953, 2, 42952, 42955, 42955],
    [1, 612, 42956, 42970, 2, 42957, 42972, 42972, 1, 411, 42997, 42997, 1, 42998, 65313, 65338],
    [1, 65345, 66560, 66599, 1, 66600, 66736, 66771, 1, 66776, 66928, 66938, 1, 66967, 66940],
    [66954, 1, 66979, 66956, 66962, 1, 66995, 66964, 66965, 1, 67003, 68736, 68786, 1, 68800],
    [68944, 68965, 1, 68976, 71840, 71871, 1, 71872, 93760, 93791, 1, 93792, 93856, 93880, 1],
    [93883, 125184, 125217, 1, 125218]]

def toUpper : Table := Table.ofRows [
    [181, 181, 1, 924, 224, 246, 1, 192, 248, 254, 1, 216, 255, 255, 1, 376, 257, 303, 2, 256],
    [305, 305, 1, 73, 307, 311, 2, 306, 314, 328, 2, 313, 331, 375, 2, 330, 378, 382, 2, 377],
    [383, 383, 1, 83, 384, 384, 1, 579, 387, 389, 2, 386, 392, 392, 1, 391, 396, 396, 1, 395],
    [402, 402, 1, 401, 405, 405, 1, 502, 409, 409, 1, 408, 410, 410, 1, 573, 411, 411, 1, 42972],
    [414, 414, 1, 544, 417, 421, 2, 416, 424, 424, 1, 423, 429, 429, 1, 428, 432, 432, 1, 431],
    [436, 438, 2, 435, 441, 441, 1, 440, 445, 445, 1, 444, 447, 447, 1, 503, 453, 453, 1, 452],
    [454, 454, 1, 452, 456, 456, 1, 455, 457, 457, 1, 455, 459, 459, 1, 458, 460, 460, 1, 458],
    [462, 476, 2, 461, 477, 477, 1, 398, 479, 495, 2, 478, 498, 498, 1, 497, 499, 499, 1, 497],
    [501, 501, 1, 500, 505, 543, 2, 504, 547, 563, 2, 546, 572, 572, 1, 571, 575, 576, 1, 11390],
    [578, 578, 1, 577, 583, 591, 2, 582, 592, 592, 1, 11375, 593, 593, 1, 11373, 594, 594, 1],
    [11376, 595, 595, 1, 385, 596, 596, 1, 390, 598, 599, 1, 393, 601, 601, 1, 399, 603, 603, 1],
    [400, 604, 604, 1, 42923, 608, 608, 1, 403, 609, 609, 1, 42924, 611, 611, 1, 404, 612, 612],
    [1, 42955, 613, 613, 1, 42893, 614, 614, 1, 42922, 616, 616, 1, 407, 617, 617, 1, 406, 618],
    [618, 1, 42926, 619, 619, 1, 11362, 620, 620, 1, 42925, 623, 623, 1, 412, 625, 625, 1],
    [11374, 626, 626, 1, 413, 629, 629, 1, 415, 637, 637, 1, 11364, 640, 640, 1, 422, 642, 642],
    [1, 42949, 643, 643, 1, 425, 647, 647, 1, 42929, 648, 648, 1, 430, 649, 649, 1, 580, 650],
    [651, 1, 433, 652, 652, 1, 581, 658, 658, 1, 439, 669, 669, 1, 42930, 670, 670, 1, 42928],
    [837, 837, 1, 921, 881, 883, 2, 880, 887, 887, 1, 886, 891, 893, 1, 1021, 940, 940, 1, 902],
    [941, 943, 1, 904, 945, 961, 1, 913, 962, 962, 1, 931, 963, 971, 1, 931, 972, 972, 1, 908],
    [973, 974, 1, 910, 976, 976, 1, 914, 977, 977, 1, 920, 981, 981, 1, 934, 982, 982, 1, 928],
    [983, 983, 1, 975, 985, 1007, 2, 984, 1008, 1008, 1, 922, 1009, 1009, 1, 929, 1010, 1010, 1],
    [1017, 1011, 1011, 1, 895, 1013, 1013, 1, 917, 1016, 1016, 1, 1015, 1019, 1019, 1, 1018],
    [1072, 1103, 1, 1040, 1104, 1119, 1, 1024, 1121, 1153, 2, 1120, 1163, 1215, 2, 1162, 1218],
    [1230, 2, 1217, 1231, 1231, 1, 1216, 1233, 1327, 2, 1232, 1377, 1414, 1, 1329, 4304, 4346],
    [1, 7312, 4349, 4351, 1, 7357, 5112, 5117, 1, 5104, 7296, 7296, 1, 1042, 7297, 7297, 1],
    [1044, 7298, 7298, 1, 1054, 7299, 7300, 1, 1057, 7301, 7301, 1, 1058, 7302, 7302, 1, 1066],
    [7303, 7303, 1, 1122, 7304, 7304, 1, 42570, 7306, 7306, 1, 7305, 7545, 7545, 1, 42877, 7549],
    [7549, 1, 11363, 7566, 7566, 1, 42950, 7681, 7829, 2, 7680, 7835, 7835, 1, 7776, 7841, 7935],
    [2, 7840, 7936, 7943, 1, 7944, 7952, 7957, 1, 7960, 7968, 7975, 1, 7976, 7984, 7991, 1],
    [7992, 8000, 8005, 1, 8008, 8017, 8023, 2, 8025, 8032, 8039, 1, 8040, 8048, 8049, 1, 8122],
    [8050, 8053, 1, 8136, 8054, 8055, 1, 8154, 8056, 8057, 1, 8184, 8058, 8059, 1, 8170, 8060],
    [8061, 1, 8186, 8064, 8071, 1, 8072, 8080, 8087, 1, 8088, 8096, 8103, 1, 8104, 8112, 8113],
    [1, 8120, 8115, 8115, 1, 8124, 8126, 8126, 1, 921, 8131, 8131, 1, 8140, 8144, 8145, 1, 8152],
    [8160, 8161, 1, 8168, 8165, 8165, 1, 8172, 8179, 8179, 1, 8188, 8526, 8526, 1, 8498, 8560],
    [8575, 1, 8544, 8580, 8580, 1, 8579, 9424, 9449, 1, 9398, 11312, 11359, 1, 11264, 11361],
    [11361, 1, 11360, 11365, 11365, 1, 570, 11366, 11366, 1, 574, 11368, 11372, 2, 11367, 11379],
    [11379, 1, 11378, 11382, 11382, 1, 11381, 11393, 11491, 2, 11392, 11500, 11502, 2, 11499],
    [11507, 11507, 1, 11506, 11520, 11557, 1, 4256, 11559, 11559, 1, 4295, 11565, 11565, 1],
    [4301, 42561, 42605, 2, 42560, 42625, 42651, 2, 42624, 42787, 42799, 2, 42786, 42803, 42863],
    [2, 42802, 42874, 42876, 2, 42873, 42879, 42887, 2, 42878, 42892, 42892, 1, 42891, 42897],
    [42899, 2, 42896, 42900, 42900, 1, 42948, 42903, 42921, 2, 42902, 42933, 42947, 2, 42932],
    [42952, 42954, 2, 42951, 42957, 42971, 2, 42956, 42998, 42998, 1, 42997, 43859, 43859, 1],
    [42931, 43888, 43967, 1, 5024, 65345, 65370, 1, 65313, 66600, 66639, 1, 66560, 66776, 66811],
    [1, 66736, 66967, 66977, 1, 66928, 66979, 66993, 1, 66940, 66995, 67001, 1, 66956, 67003],
    [67004, 1, 66964, 68800, 68850, 1, 68736, 68976, 68997, 1, 68944, 71872, 71903, 1, 71840],
    [93792, 93823, 1, 93760, 93883, 93907, 1, 93856, 125218, 125251, 1, 125184]]

/-- From a character to the least one that differs from it by case alone. -/
def toLeast : Table := Table.ofRows [
    [224, 246, 1, 192, 248, 254, 1, 216, 257, 303, 2, 256, 307, 311, 2, 306, 314, 328, 2, 313],
    [331, 375, 2, 330, 376, 376, 1, 255, 378, 382, 2, 377, 383, 383, 1, 83, 387, 389, 2, 386],
    [392, 392, 1, 391, 396, 396, 1, 395, 402, 402, 1, 401, 409, 409, 1, 408, 417, 421, 2, 416],
    [424, 424, 1, 423, 429, 429, 1, 428, 432, 432, 1, 431, 436, 438, 2, 435, 441, 441, 1, 440],
    [445, 445, 1, 444, 453, 453, 1, 452, 454, 454, 1, 452, 456, 456, 1, 455, 457, 457, 1, 455],
    [459, 459, 1, 458, 460, 460, 1, 458, 462, 476, 2, 461, 477, 477, 1, 398, 479, 495, 2, 478],
    [498, 498, 1, 497, 499, 499, 1, 497, 501, 501, 1, 500, 502, 502, 1, 405, 503, 503, 1, 447],
    [505, 543, 2, 504, 544, 544, 1, 414, 547, 563, 2, 546, 572, 572, 1, 571, 573, 573, 1, 410],
    [578, 578, 1, 577, 579, 579, 1, 384, 583, 591, 2, 582, 595, 595, 1, 385, 596, 596, 1, 390],
    [598, 599, 1, 393, 601, 601, 1, 399, 603, 603, 1, 400, 608, 608, 1, 403, 611, 611, 1, 404],
    [616, 616, 1, 407, 617, 617, 1, 406, 623, 623, 1, 412, 626, 626, 1, 413, 629, 629, 1, 415],
    [640, 640, 1, 422, 643, 643, 1, 425, 648, 648, 1, 430, 649, 649, 1, 580, 650, 651, 1, 433],
    [652, 652, 1, 581, 658, 658, 1, 439, 881, 883, 2, 880, 887, 887, 1, 886, 921, 921, 1, 837],
    [924, 924, 1, 181, 940, 940, 1, 902, 941, 943, 1, 904, 945, 952, 1, 913, 953, 953, 1, 837],
    [954, 955, 1, 922, 956, 956, 1, 181, 957, 961, 1, 925, 962, 962, 1, 931, 963, 971, 1, 931],
    [972, 972, 1, 908, 973, 974, 1, 910, 976, 976, 1, 914, 977, 977, 1, 920, 981, 981, 1, 934],
    [982, 982, 1, 928, 983, 983, 1, 975, 985, 1007, 2, 984, 1008, 1008, 1, 922, 1009, 1009, 1],
    [929, 1011, 1011, 1, 895, 1012, 1012, 1, 920, 1013, 1013, 1, 917, 1016, 1016, 1, 1015, 1017],
    [1017, 1, 1010, 1019, 1019, 1, 1018, 1021, 1023, 1, 891, 1072, 1103, 1, 1040, 1104, 1119, 1],
    [1024, 1121, 1153, 2, 1120, 1163, 1215, 2, 1162, 1218, 1230, 2, 1217, 1231, 1231, 1, 1216],
    [1233, 1327, 2, 1232, 1377, 1414, 1, 1329, 5112, 5117, 1, 5104, 7296, 7296, 1, 1042, 7297],
    [7297, 1, 1044, 7298, 7298, 1, 1054, 7299, 7300, 1, 1057, 7301, 7301, 1, 1058, 7302, 7302],
    [1, 1066, 7303, 7303, 1, 1122, 7306, 7306, 1, 7305, 7312, 7354, 1, 4304, 7357, 7359, 1],
    [4349, 7681, 7829, 2, 7680, 7835, 7835, 1, 7776, 7838, 7838, 1, 223, 7841, 7935, 2, 7840],
    [7944, 7951, 1, 7936, 7960, 7965, 1, 7952, 7976, 7983, 1, 7968, 7992, 7999, 1, 7984, 8008],
    [8013, 1, 8000, 8025, 8031, 2, 8017, 8040, 8047, 1, 8032, 8072, 8079, 1, 8064, 8088, 8095],
    [1, 8080, 8104, 8111, 1, 8096, 8120, 8121, 1, 8112, 8122, 8123, 1, 8048, 8124, 8124, 1],
    [8115, 8126, 8126, 1, 837, 8136, 8139, 1, 8050, 8140, 8140, 1, 8131, 8147, 8147, 1, 912],
    [8152, 8153, 1, 8144, 8154, 8155, 1, 8054, 8163, 8163, 1, 944, 8168, 8169, 1, 8160, 8170],
    [8171, 1, 8058, 8172, 8172, 1, 8165, 8184, 8185, 1, 8056, 8186, 8187, 1, 8060, 8188, 8188],
    [1, 8179, 8486, 8486, 1, 937, 8490, 8490, 1, 75, 8491, 8491, 1, 197, 8526, 8526, 1, 8498],
    [8560, 8575, 1, 8544, 8580, 8580, 1, 8579, 9424, 9449, 1, 9398, 11312, 11359, 1, 11264],
    [11361, 11361, 1, 11360, 11362, 11362, 1, 619, 11363, 11363, 1, 7549, 11364, 11364, 1, 637],
    [11365, 11365, 1, 570, 11366, 11366, 1, 574, 11368, 11372, 2, 11367, 11373, 11373, 1, 593],
    [11374, 11374, 1, 625, 11375, 11375, 1, 592, 11376, 11376, 1, 594, 11379, 11379, 1, 11378],
    [11382, 11382, 1, 11381, 11390, 11391, 1, 575, 11393, 11491, 2, 11392, 11500, 11502, 2],
    [11499, 11507, 11507, 1, 11506, 11520, 11557, 1, 4256, 11559, 11559, 1, 4295, 11565, 11565],
    [1, 4301, 42561, 42569, 2, 42560, 42570, 42570, 1, 7304, 42571, 42571, 1, 7304, 42573],
    [42605, 2, 42572, 42625, 42651, 2, 42624, 42787, 42799, 2, 42786, 42803, 42863, 2, 42802],
    [42874, 42876, 2, 42873, 42877, 42877, 1, 7545, 42879, 42887, 2, 42878, 42892, 42892, 1],
    [42891, 42893, 42893, 1, 613, 42897, 42899, 2, 42896, 42903, 42921, 2, 42902, 42922, 42922],
    [1, 614, 42923, 42923, 1, 604, 42924, 42924, 1, 609, 42925, 42925, 1, 620, 42926, 42926, 1],
    [618, 42928, 42928, 1, 670, 42929, 42929, 1, 647, 42930, 42930, 1, 669, 42933, 42947, 2],
    [42932, 42948, 42948, 1, 42900, 42949, 42949, 1, 642, 42950, 42950, 1, 7566, 42952, 42954],
    [2, 42951, 42955, 42955, 1, 612, 42957, 42971, 2, 42956, 42972, 42972, 1, 411, 42998, 42998],
    [1, 42997, 43859, 43859, 1, 42931, 43888, 43967, 1, 5024, 64262, 64262, 1, 64261, 65345],
    [65370, 1, 65313, 66600, 66639, 1, 66560, 66776, 66811, 1, 66736, 66967, 66977, 1, 66928],
    [66979, 66993, 1, 66940, 66995, 67001, 1, 66956, 67003, 67004, 1, 66964, 68800, 68850, 1],
    [68736, 68976, 68997, 1, 68944, 71872, 71903, 1, 71840, 93792, 93823, 1, 93760, 93883],
    [93907, 1, 93856, 125218, 125251, 1, 125184]]

end CodeAtlas.CharTable
